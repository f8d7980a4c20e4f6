import NetworkFinality.Safety.Locks
import NetworkFinality.Semantics.Linearization
import NetworkFinality.Spec.Flag

/-!
# Concurrent sink calls are linearizable

While only sinks work and no effect fails, each call takes effect at one instant between
its first operation and its last, as if it ran alone there. A call that is allowed takes effect when it consumes
its authority, a call that finds the flag set when it looks at it, and a call that another
guard denies when it ends or, behind the flag, when it has seen the flag clear.

Up to its effect a call that has consumed an authority holds the lock of its network. So
effects are recorded in the order of the consumptions, and the serial history ends in the
very world that the concurrent run leaves.
-/

namespace NetworkFinality

open Python Semantics Procedure

/-- Two answers to a request, equal up to which look at the flag has denied it. -/
inductive AnswersAlike :
    Except Exit SinkVerifyResponse → Except Exit SinkVerifyResponse → Prop where
  | same (outcome : Except Exit SinkVerifyResponse) : AnswersAlike outcome outcome
  | used (requestId message message' : Str) (checks checks' : Dict Str) (authorityId : Option Str) :
      AnswersAlike
        (.error (.denied (deny requestId .authorityAlreadyUsed message checks authorityId)))
        (.error (.denied (deny requestId .authorityAlreadyUsed message' checks' authorityId)))

/-- What sinks may change: consumption flags and recorded effects. -/
structure World.SinksMove (now later : World) : Prop where
  clock : later.clock = now.clock
  state : later.state = now.state
  evidenceStore : later.evidenceStore = now.evidenceStore
  issued : ∀ id, later.activations.issued id = now.activations.issued id

namespace World.SinksMove

variable [Hashlib] {now later : World}

omit [Hashlib] in
theorem refl (world : World) : SinksMove world world := ⟨rfl, rfl, rfl, fun _ => rfl⟩

theorem consume (authorityId : Str) (world : World) :
    SinksMove world (World.exec (.consume authorityId) world).2 := by
  by_cases consumed : (World.exec (.consume authorityId) world).1 = .ok true
  · obtain ⟨store, changed, -, table, -⟩ := World.exec_consumed world consumed
    rw [changed]
    refine ⟨rfl, rfl, rfl, fun id => ?_⟩
    rw [World.activations, table, ActivationTable.issued_setUsed]
  · rw [World.exec_consume_failed world consumed]
    exact refl world

theorem apply (network : Nat) (effect : NetworkEffect) (hex : Str) (world : World) :
    SinksMove world (World.exec (.apply network effect (some hex)) world).2 :=
  ⟨rfl, rfl, rfl, fun _ => rfl⟩

/-- What is fixed is read alike afterwards. -/
theorem fixed (moves : SinksMove now later) {op : Op} (fixed : op.isFixed = true) :
    (World.exec op later).1 = (World.exec op now).1 := by
  cases op with
  | getEvidence id => simp only [World.exec, moves.evidenceStore]
  | clock => exact moves.clock
  | _ => first | simp only [World.exec, moves.state]; done | cases fixed

/-- A program that only reads the protected state ends alike afterwards. -/
theorem outcome (moves : SinksMove now later) {α : Type} {program : Program α}
    (state : OnlyState program) :
    (program.run World.exec later).1 = (program.run World.exec now).1 := by
  refine (run_related World.exec (fun left right => left = later ∧ right = now) ?_ state
    ⟨rfl, rfl⟩).1
  rintro op reads left right ⟨rfl, rfl⟩
  rw [World.exec_readOnly (Op.isWrite_of_readsState reads) left,
    World.exec_readOnly (Op.isWrite_of_readsState reads) right]
  exact ⟨moves.fixed (Op.isFixed_of_readsState reads), rfl, rfl⟩

end World.SinksMove

/-! ### The instant of a call -/

section

variable [Hashlib] {sink : NetworkFinalitySink} {request : SinkRequest} {draw : Option Str}
  {authority : NetworkFinalityAuthority} {evidence : EvidenceRecord} {activation : ActivationRecord}
  {now later state : World}

/-- What a call has read before it looked at the flag, and still holds. -/
structure StillRead (sink : NetworkFinalitySink) (request : SinkRequest)
    (authority : NetworkFinalityAuthority) (evidence : EvidenceRecord)
    (activation : ActivationRecord) (now : World) : Prop where
  admitted : LocallyAdmitted sink request authority now.clock evidence activation
  evidenceStored : now.evidenceStore.get authority.binding.evidenceId = .ok (some evidence)
  issued : now.activations.issued authority.authorityId = some (activation.withUsed false)

theorem StillRead.moves (known : StillRead sink request authority evidence activation now)
    (moves : World.SinksMove now later) :
    StillRead sink request authority evidence activation later where
  admitted := moves.clock ▸ known.admitted
  evidenceStored := moves.evidenceStore ▸ known.evidenceStored
  issued := (moves.issued _).trans known.issued

/-- What all guards have read, and still holds. -/
structure StillAdmitted (sink : NetworkFinalitySink) (request : SinkRequest)
    (authority : NetworkFinalityAuthority) (evidence : EvidenceRecord)
    (activation : ActivationRecord) (now : World) : Prop extends
    StillRead sink request authority evidence activation now where
  sinkMatches : SinkMatches sink request.candidate authority
  scopeMatches : ScopeMatches request authority activation
  reference : now.state.protectedStateReference = authority.binding.protectedStateReference
  epochs : ∀ epoch, now.state.epoch epoch = (authority.binding.epoch epoch : Int)

theorem StillAdmitted.moves (known : StillAdmitted sink request authority evidence activation now)
    (moves : World.SinksMove now later) :
    StillAdmitted sink request authority evidence activation later where
  toStillRead := known.toStillRead.moves moves
  sinkMatches := known.sinkMatches
  scopeMatches := known.scopeMatches
  reference := moves.state ▸ known.reference
  epochs := moves.state ▸ known.epochs

/-- A call that has not taken effect yet. -/
inductive Waiting (sink : NetworkFinalitySink) (request : SinkRequest) (draw : Option Str)
    (now : World) : List (Event system) → Program SinkVerifyResponse → Prop where
  /-- The call has only read what no sink changes. -/
  | reading {past : List (Event system)} {op : Op} {next : op.Answer → Program SinkVerifyResponse}
      (fixed : ∀ event ∈ past, event.op.isFixed = true ∧
        event.answer = (World.exec event.op now).1)
      (reads : op.isFixed = true ∨ ∃ id, op = .getActivation id) :
      Waiting sink request draw now past (.call op next)
  /-- The call is about to look at the flag. -/
  | looking {past : List (Event system)} {authority : NetworkFinalityAuthority}
      {evidence : EvidenceRecord} {activation : ActivationRecord}
      (known : StillRead sink request authority evidence activation now) :
      Waiting sink request draw now past (.call (.isUsed authority.authorityId)
        (sink.afterFlag request draw authority activation localChecks))
  /-- The call has seen the flag clear, and the remaining guards will pass. -/
  | checking {past tail : List (Event system)} {authority : NetworkFinalityAuthority}
      {evidence : EvidenceRecord} {activation : ActivationRecord}
      {rest : Program (NetworkFinalityAuthority × Dict Str)}
      (known : StillRead sink request authority evidence activation now)
      (path : (sink.matchCurrent request authority activation
        (localChecks.set "consumption_state" "UNUSED")).Path tail rest)
      (current : ∀ event ∈ tail, event.answer = (World.exec event.op now).1)
      (passes : ∃ passed, (rest.run World.exec now).1 = .ok passed) :
      Waiting sink request draw now past (rest >>= fun (authority, checks) =>
        sink.effectuate request draw authority checks)
  /-- The call is about to consume the authority. -/
  | consuming {past : List (Event system)} {authority : NetworkFinalityAuthority}
      {evidence : EvidenceRecord} {activation : ActivationRecord}
      (known : StillAdmitted sink request authority evidence activation now) :
      Waiting sink request draw now past (.call (.consume authority.authorityId)
        (sink.afterConsume request draw authority guardChecks))

/-- A call that has taken effect in the world `before`. -/
inductive Taken (sink : NetworkFinalitySink) (request : SinkRequest) (draw : Option Str)
    (before now : World) : Program SinkVerifyResponse → Prop where
  | ended {outcome : Except Exit SinkVerifyResponse} (alike : AnswersAlike outcome
        ((sink.verifyAndEffectuate request draw).run World.exec before).1) :
      Taken sink request draw before now (.ended outcome)
  /-- The guards behind the flag will deny. -/
  | denying {rest : Program (NetworkFinalityAuthority × Dict Str)} {reason : Exit}
      (state : OnlyState rest) (denies : (rest.run World.exec now).1 = .error reason)
      (alike : AnswersAlike (.error reason)
        ((sink.verifyAndEffectuate request draw).run World.exec before).1) :
      Taken sink request draw before now (rest >>= fun (authority, checks) =>
        sink.effectuate request draw authority checks)
  /-- The effect is next. -/
  | applying {authority : NetworkFinalityAuthority} {hex : Str}
      (drawn : draw = some hex)
      (allows : ((sink.verifyAndEffectuate request draw).run World.exec before).1 =
        .ok (NetworkFinalitySink.allow request authority guardChecks
          (("net-effect-" : Str) ++ hex))) :
      Taken sink request draw before now (.call
        (.apply sink.network (NetworkFinalitySink.effectOf request authority) draw)
        (NetworkFinalitySink.afterApply request authority guardChecks))

omit [Hashlib] in
/-- Behind the flag the next operation is a read. -/
private theorem checking_not_applies {rest : Program (NetworkFinalityAuthority × Dict Str)}
    (state : OnlyState rest) (network : Nat) (effect : NetworkEffect) (drawn : Option Str)
    (next : Op.Answer (.apply network effect drawn) → Program SinkVerifyResponse) :
    (rest >>= fun (authority, checks) => sink.effectuate request draw authority checks) ≠
      .call (.apply network effect drawn) next := by
  intro applies
  rcases rest with passed | reason | ⟨op, further⟩
  · cases applies
  · cases applies
  · obtain ⟨rfl, -⟩ := Procedure.call.inj applies
    cases (uses_call.mp state).1

/-- A call that waits applies no effect next. -/
theorem Waiting.not_applies {past : List (Event system)} {rest : Program SinkVerifyResponse}
    (waiting : Waiting sink request draw now past rest) (network : Nat) (effect : NetworkEffect)
    (drawn : Option Str) (next : Op.Answer (.apply network effect drawn) → Program SinkVerifyResponse) :
    rest ≠ .call (.apply network effect drawn) next := by
  cases waiting with
  | reading fixed reads =>
      intro applies
      obtain ⟨rfl, -⟩ := Procedure.call.inj applies
      rcases reads with reads | ⟨id, same⟩
      · cases reads
      · cases same
  | looking known => exact fun applies => by cases applies
  | checking known path current passes =>
      exact checking_not_applies (NetworkFinalitySink.matchCurrent_state.remains path) _ _ _ _
  | consuming known => exact fun applies => by cases applies

theorem Waiting.moves {past : List (Event system)} {rest : Program SinkVerifyResponse}
    (waiting : Waiting sink request draw now past rest) (moves : World.SinksMove now later) :
    Waiting sink request draw later past rest := by
  cases waiting with
  | reading fixed reads =>
      refine .reading (fun event listed => ⟨(fixed event listed).1, ?_⟩) reads
      rw [moves.fixed (fixed event listed).1, (fixed event listed).2]
  | looking known => exact .looking (known.moves moves)
  | checking known path current passes =>
      refine .checking (known.moves moves) path (fun event listed => ?_) ?_
      · have reads := NetworkFinalitySink.matchCurrent_state.events path event listed
        rw [moves.fixed (Op.isFixed_of_readsState reads), current event listed]
      · rwa [moves.outcome (NetworkFinalitySink.matchCurrent_state.remains path)]
  | consuming known => exact .consuming (known.moves moves)

theorem Taken.moves {before : World} {rest : Program SinkVerifyResponse}
    (taken : Taken sink request draw before now rest) (moves : World.SinksMove now later) :
    Taken sink request draw before later rest := by
  cases taken with
  | ended alike => exact .ended alike
  | denying state denies alike => exact .denying state ((moves.outcome state).trans denies) alike
  | applying drawn allows => exact .applying drawn allows

/-- A world that differs in the networks only. -/
def World.NearBy (state now : World) : Prop := state = { now with networks := state.networks }

namespace World.NearBy

omit [Hashlib] in
theorem moves {now state : World} (near : NearBy state now) : SinksMove now state where
  clock := by rw [near]
  state := by rw [near]
  evidenceStore := by rw [near]
  issued id := by
    rw [near]
    rfl

omit [Hashlib] in
theorem activationStore {now state : World} (near : NearBy state now) :
    state.activationStore = now.activationStore := by
  rw [near]

/-- Reads are answered alike. -/
theorem reads (near : NearBy state now) {op : Op} (read : op.isWrite = false) :
    (World.exec op state).1 = (World.exec op now).1 := by
  rw [near]
  cases op <;> first | rfl | cases read

end World.NearBy

/-- How a call goes on that has not taken effect. -/
inductive Advance (sink : NetworkFinalitySink) (request : SinkRequest) (draw : Option Str)
    (state now : World) (op : Op) (past : List (Event system)) (after : Program SinkVerifyResponse) :
    Prop where
  | waits (same : (World.exec op now).2 = now) (waiting : Waiting sink request draw now past after)
  | answers (same : (World.exec op now).2 = now) (taken : Taken sink request draw state now after)
      (idle : ∀ network effect drawn next, after ≠ .call (.apply network effect drawn) next)
      (unchanged : ((sink.verifyAndEffectuate request draw).run World.exec state).2 = state)
  | consumes (authority : NetworkFinalityAuthority) (hex : Str) (drawn : draw = some hex)
      (consume : op = .consume authority.authorityId)
      (applies : after = .call
        (.apply sink.network (NetworkFinalitySink.effectOf request authority) draw)
        (NetworkFinalitySink.afterApply request authority guardChecks))
      (taken : Taken sink request draw state (World.exec op now).2 after)
      (applied : ((sink.verifyAndEffectuate request draw).run World.exec state).2 =
        sink.applied request authority hex state)

/-- A call whose next operation denies it answers as it does alone. -/
private theorem Advance.denies {op : Op} {past : List (Event system)} {reason : Exit}
    (same : (World.exec op now).2 = now)
    (ran : ∃ other, (sink.verifyAndEffectuate request draw).run World.exec state =
      (.error other, state) ∧ AnswersAlike (.error reason) (.error other)) :
    Advance sink request draw state now op past (.exit reason) := by
  obtain ⟨other, ran, alike⟩ := ran
  have taken : Taken sink request draw state now (.ended (.error reason)) :=
    .ended (by rwa [ran])
  exact .answers same taken (by simp) (by rw [ran])

/-- Before the look at the flag. -/
private theorem advance_reading {past : List (Event system)} {op : Op}
    {next : op.Answer → Program SinkVerifyResponse}
    (path : (sink.verifyAndEffectuate request draw).Path past (.call op next))
    (near : World.NearBy state now)
    (fixed : ∀ event ∈ past, event.op.isFixed = true ∧ event.answer = (World.exec event.op now).1)
    (reads : op.isFixed = true ∨ ∃ id, op = .getActivation id) :
    Advance sink request draw state now op (past ++ [⟨op, (World.exec op now).1⟩])
      (next (World.exec op now).1) := by
  have quiet : op.isWrite = false := by
    rcases reads with fixed | ⟨id, rfl⟩
    · exact Op.isWrite_of_isFixed fixed
    · rfl
  have same : (World.exec op now).2 = now := World.exec_readOnly quiet now
  have further := path.snoc (World.exec op now).1
  have current : ∀ event ∈ past ++ [⟨op, (World.exec op now).1⟩], event.op.isWrite = false ∧
      event.answer = (World.exec event.op now).1 := by
    intro event listed
    rcases List.mem_append.mp listed with earlier | last
    · exact ⟨Op.isWrite_of_isFixed (fixed event earlier).1, (fixed event earlier).2⟩
    · rw [List.mem_singleton.mp last]
      exact ⟨quiet, rfl⟩
  have unlooked : ∀ event ∈ past ++ [⟨op, (World.exec op now).1⟩], ∀ id,
      event.op ≠ .isUsed id := by
    intro event listed id looks
    rcases List.mem_append.mp listed with earlier | last
    · have := (fixed event earlier).1
      rw [looks] at this
      cases this
    · rw [List.mem_singleton.mp last] at looks
      subst looks
      rcases reads with fixed | ⟨id, same⟩
      · cases fixed
      · cases same
  -- The answers are those of the serial world as well.
  have ran : (sink.verifyAndEffectuate request draw).run World.exec state =
      (next (World.exec op now).1).run World.exec state := by
    refine run_of_path World.exec further ((answered_readOnly World.exec ?_).mpr ⟨rfl, ?_⟩)
    · exact fun event listed => World.exec_readOnly (current event listed).1
    · exact fun event listed => (current event listed).2.trans
        (near.reads (current event listed).1).symm
  have reached := NetworkFinalitySink.beforeFlag_of_path further unlooked
  generalize next (World.exec op now).1 = after at ran reached
  generalize split : past ++ [⟨op, (World.exec op now).1⟩] = performed at reached current
  cases reached with
  | left reason => exact .denies same ⟨reason, ran, .same _⟩
  | reading before reads =>
      exact .waits same (.reading (fun event listed => ⟨before event listed, (current event listed).2⟩)
        reads)
  | @looking clock authority evidence activation admitted =>
      have clockRead := (current ⟨.clock, clock⟩ (by simp)).2
      have evidenceRead := (current ⟨.getEvidence authority.binding.evidenceId,
        .ok (some evidence)⟩ (by simp)).2
      have activationRead := (current ⟨.getActivation authority.authorityId,
        .ok (some activation)⟩ (by simp)).2
      obtain rfl : clock = now.clock := clockRead
      refine .waits same (.looking ⟨admitted, evidenceRead.symm, ?_⟩)
      exact (ActivationStore.get_ok activationRead.symm).symm

/-- A call finds its activation record, up to the flag, and the flag. -/
private theorem StillRead.record
    (known : StillRead sink request authority evidence activation now) :
    ∃ (flag used : Bool),
      now.activationStore.get authority.authorityId = .ok (some (activation.withUsed flag)) ∧
      now.activationStore.isUsed authority.authorityId = .ok used := by
  obtain ⟨record, present, same⟩ := Option.map_eq_some_iff.mp known.issued
  obtain ⟨found, stored, agrees⟩ := ActivationStore.get_some present
  refine ⟨found.used, record.used, ?_, ActivationStore.isUsed_some present⟩
  rw [stored, ← ActivationRecord.eq_withUsed (agrees.trans same)]

/-- Alone, a call runs on from its look at the flag as it does here. -/
private theorem StillRead.run_at_flag
    (known : StillRead sink request authority evidence activation state) {used : Bool}
    (flag : state.activationStore.isUsed authority.authorityId = .ok used) :
    (sink.verifyAndEffectuate request draw).run World.exec state =
      (sink.afterFlag request draw authority activation localChecks (.ok used)).run World.exec
        state := by
  obtain ⟨kept, _, stored, -⟩ := known.record
  rw [NetworkFinalitySink.run_at_flag (known.admitted.withUsed kept) known.evidenceStored stored flag,
    NetworkFinalitySink.afterFlag_withUsed]

/-- Alone, a call whose authority is used is denied for that. -/
private theorem StillRead.run_used
    (known : StillRead sink request authority evidence activation state)
    (used : state.activationStore.isUsed authority.authorityId = .ok true) :
    (sink.verifyAndEffectuate request draw).run World.exec state =
      (.error (.denied (deny request.requestId .authorityAlreadyUsed
        "single-use authority has already been consumed" localChecks
        (some authority.authorityId))), state) := by
  rw [known.run_at_flag used, NetworkFinalitySink.afterFlag_used, run_exit]

/-- At the look at the flag. -/
private theorem advance_looking {past : List (Event system)}
    (known : StillRead sink request authority evidence activation now)
    (near : World.NearBy state now) :
    Advance sink request draw state now (.isUsed authority.authorityId) past
      (sink.afterFlag request draw authority activation localChecks
        (World.exec (.isUsed authority.authorityId) now).1) := by
  obtain ⟨-, used, -, flag⟩ := known.record
  have known' := known.moves near.moves
  have flag' : state.activationStore.isUsed authority.authorityId = .ok used := by
    rw [near.activationStore, flag]
  have answer : (World.exec (.isUsed authority.authorityId) now).1 = .ok used := flag
  rw [answer]
  cases used with
  | true =>
      rw [NetworkFinalitySink.afterFlag_used]
      exact .denies rfl ⟨_, known'.run_used flag', .same _⟩
  | false =>
      rw [NetworkFinalitySink.afterFlag_unused]
      have state_ : OnlyState (sink.matchCurrent request authority activation
          (localChecks.set "consumption_state" "UNUSED")) :=
        NetworkFinalitySink.matchCurrent_state
      cases outcome : ((sink.matchCurrent request authority activation
          (localChecks.set "consumption_state" "UNUSED")).run World.exec now).1 with
      | ok passed => exact .waits rfl (.checking known .here (by simp) ⟨passed, outcome⟩)
      | error reason =>
          -- The remaining guards deny here as they do alone.
          have alone : (sink.verifyAndEffectuate request draw).run World.exec state =
              (.error reason, state) := by
            rw [known'.run_at_flag flag', NetworkFinalitySink.afterFlag_unused, run_bind]
            have kept := run_readOnly World.exec
              (state_.reads.mono fun _ => World.exec_readOnly) state
            have denied := (near.moves.outcome state_).trans outcome
            rcases ran : (sink.matchCurrent request authority activation
              (localChecks.set "consumption_state" "UNUSED")).run World.exec state with ⟨out, after⟩
            rw [ran] at kept denied
            obtain rfl : out = .error reason := denied
            obtain rfl : after = state := kept
            rfl
          exact .answers rfl (.denying state_ outcome (by rw [alone]; exact .same _))
            (checking_not_applies state_) (by rw [alone])

/-- Behind the look at the flag. -/
private theorem advance_checking {past tail : List (Event system)} {op : Op}
    {next : op.Answer → Program SinkVerifyResponse}
    {rest : Program (NetworkFinalityAuthority × Dict Str)}
    (known : StillRead sink request authority evidence activation now)
    (path : (sink.matchCurrent request authority activation
      (localChecks.set "consumption_state" "UNUSED")).Path tail rest)
    (current : ∀ event ∈ tail, event.answer = (World.exec event.op now).1)
    (passes : ∃ passed, (rest.run World.exec now).1 = .ok passed)
    (calls : (rest >>= fun (authority, checks) =>
      sink.effectuate request draw authority checks) = .call op next)
    (near : World.NearBy state now) :
    Advance sink request draw state now op past (next (World.exec op now).1) := by
  obtain ⟨passed, passes⟩ := passes
  rcases rest with ⟨authority', checks⟩ | reason | ⟨op', further⟩
  · -- The guards have passed, and the call looks at the flag under the lock.
    obtain ⟨rfl, rfl, sinkMatches, scopeMatches, rfl⟩ := NetworkFinalitySink.matchCurrent_returns path
    rw [done_bind] at calls
    obtain ⟨rfl, same⟩ := Procedure.call.inj (NetworkFinalitySink.effectuate_eq.symm.trans calls)
    obtain rfl := eq_of_heq same
    obtain ⟨-, used, -, flag⟩ := known.record
    have answer : (World.exec (.isUsed authority'.authorityId) now).1 = .ok used := flag
    rw [answer]
    cases used with
    | true =>
        have known' := known.moves near.moves
        rw [NetworkFinalitySink.afterLook_used]
        exact .denies rfl ⟨_, known'.run_used (by rw [near.activationStore, flag]), .used ..⟩
    | false =>
        rw [NetworkFinalitySink.afterLook_unused]
        refine .waits rfl (.consuming ⟨known, sinkMatches, scopeMatches, ?_, ?_⟩)
        · exact (current ⟨.protectedStateReference, _⟩ (by simp)).symm
        · exact World.epochs_iff.mpr ⟨(current ⟨.epoch .topology, _⟩ (by simp)).symm,
            (current ⟨.epoch .configuration, _⟩ (by simp)).symm,
            (current ⟨.epoch .policy, _⟩ (by simp)).symm,
            (current ⟨.epoch .authority, _⟩ (by simp)).symm,
            (current ⟨.epoch .revocation, _⟩ (by simp)).symm⟩
  · cases passes
  · obtain ⟨rfl, same⟩ := Procedure.call.inj calls
    obtain rfl := eq_of_heq same
    have reads := (uses_call.mp (NetworkFinalitySink.matchCurrent_state.remains path)).1
    have same : (World.exec op' now).2 = now :=
      World.exec_readOnly (Op.isWrite_of_readsState reads) now
    refine .waits same (.checking known (path.snoc _) ?_ ⟨passed, ?_⟩)
    · intro event listed
      rcases List.mem_append.mp listed with earlier | last
      · exact current event earlier
      · rw [List.mem_singleton.mp last]
    · rw [run_call, same] at passes
      exact passes

/-- At the consumption. -/
private theorem advance_consuming {past : List (Event system)} {hex : Str}
    (known : StillAdmitted sink request authority evidence activation now)
    (near : World.NearBy state now) (drawn : draw = some hex) :
    Advance sink request draw state now (.consume authority.authorityId) past
      (sink.afterConsume request draw authority guardChecks
        (World.exec (.consume authority.authorityId) now).1) := by
  obtain ⟨record, present, -⟩ := Option.map_eq_some_iff.mp known.issued
  have flag := ActivationStore.isUsed_some present
  have known' := known.moves near.moves
  have flag' : state.activationStore.isUsed authority.authorityId = .ok record.used := by
    rw [near.activationStore, flag]
  cases used : record.used with
  | false =>
      have consumed := World.exec_consume_unused now present used
      rw [consumed, NetworkFinalitySink.afterConsume_consumed]
      -- Alone, the request is permitted and takes effect.
      obtain ⟨kept, _, stored, -⟩ := known'.record
      have permitted : Permitted state sink request authority evidence (activation.withUsed kept) :=
        { toAuthenticated := known'.admitted.toAuthenticated
          toEvidenceMatches := known'.admitted.toEvidenceMatches
          toActivationMatches := (known'.admitted.withUsed kept).toActivationMatches
          toSinkMatches := known'.sinkMatches
          toScopeMatches := known'.scopeMatches.withUsed kept
          evidenceStored := known'.evidenceStored
          activationStored := stored
          unused := by rw [flag', used]
          reference := known'.reference
          epochs := known'.epochs }
      have alone := NetworkFinalitySink.verifyAndEffectuate_ok.mpr
        ⟨authority, evidence, _, hex, permitted, drawn, rfl, rfl⟩
      exact .consumes authority hex drawn rfl rfl (.applying drawn (by rw [alone])) (by rw [alone])
  | true =>
      have refused := World.exec_consume_used now present used
      have alone : (sink.verifyAndEffectuate request draw).run World.exec state = _ :=
        known'.run_used (by rw [flag', used])
      rw [refused, NetworkFinalitySink.afterConsume_refused]
      exact .denies (World.exec_consume_failed now (by rw [refused]; simp)) ⟨_, alone, .used ..⟩

/-- Every operation of a call that waits. -/
theorem Waiting.advance {past : List (Event system)} {hex : Str} {op : Op}
    {next : op.Answer → Program SinkVerifyResponse}
    (waiting : Waiting sink request (some hex) now past (.call op next))
    (path : (sink.verifyAndEffectuate request (some hex)).Path past (.call op next))
    (near : World.NearBy state now) :
    Advance sink request (some hex) state now op (past ++ [⟨op, (World.exec op now).1⟩])
      (next (World.exec op now).1) := by
  generalize calls : (.call op next : Program SinkVerifyResponse) = rest at waiting
  cases waiting with
  | reading fixed reads =>
      obtain ⟨rfl, same⟩ := Procedure.call.inj calls
      obtain rfl := eq_of_heq same
      exact advance_reading path near fixed reads
  | looking known =>
      obtain ⟨rfl, same⟩ := Procedure.call.inj calls
      obtain rfl := eq_of_heq same
      exact advance_looking known near
  | checking known path current passes =>
      exact advance_checking known path current passes calls.symm near
  | consuming known =>
      obtain ⟨rfl, same⟩ := Procedure.call.inj calls
      obtain rfl := eq_of_heq same
      exact advance_consuming known near rfl

/-- A call that waits has not ended. -/
theorem Waiting.calls {past : List (Event system)} {rest : Program SinkVerifyResponse}
    (waiting : Waiting sink request draw now past rest) : ∃ op next, rest = .call op next := by
  cases waiting with
  | reading fixed reads => exact ⟨_, _, rfl⟩
  | looking known => exact ⟨_, _, rfl⟩
  | @checking tail authority evidence activation rest known path current passes =>
      rcases rest with passed | reason | ⟨op, further⟩
      · exact ⟨_, _, NetworkFinalitySink.effectuate_eq⟩
      · obtain ⟨_, passes⟩ := passes
        cases passes
      · exact ⟨_, _, rfl⟩
  | consuming known => exact ⟨_, _, rfl⟩

/-- How a call goes on that has taken effect. -/
theorem Taken.advance {before : World} {op : Op} {next : op.Answer → Program SinkVerifyResponse}
    (taken : Taken sink request draw before now (.call op next)) :
    (∀ network effect drawn further, next (World.exec op now).1 ≠
        .call (.apply network effect drawn) further) ∧
      Taken sink request draw before now (next (World.exec op now).1) ∧
      (((World.exec op now).2 = now ∧ op.readsState = true) ∨
        ∃ effect hex, op = .apply sink.network effect (some hex)) := by
  generalize calls : (.call op next : Program SinkVerifyResponse) = rest at taken
  cases taken with
  | @ended outcome alike => cases outcome <;> cases calls
  | @denying rest reason state denies alike =>
      rcases rest with passed | reason' | ⟨op', further⟩
      · cases denies
      · cases calls
      · obtain ⟨rfl, same⟩ := Procedure.call.inj calls
        obtain rfl := eq_of_heq same
        obtain ⟨reads, state⟩ := uses_call.mp state
        have same : (World.exec op now).2 = now :=
          World.exec_readOnly (Op.isWrite_of_readsState reads) now
        rw [run_call, same] at denies
        exact ⟨checking_not_applies (state _), .denying (state _) denies alike, .inl ⟨same, reads⟩⟩
  | @applying authority hex drawn allows =>
      obtain ⟨rfl, same⟩ := Procedure.call.inj calls
      obtain rfl := eq_of_heq same
      subst drawn
      have response : Taken sink request (some hex) before now (.ended (.ok
          (NetworkFinalitySink.allow request authority guardChecks
            (("net-effect-" : Str) ++ hex)))) :=
        .ended (by rw [allows]; exact .same _)
      exact ⟨fun _ _ _ _ applies => (by cases applies), response, .inr ⟨_, _, rfl⟩⟩

/-- What a call answers that has taken effect. -/
theorem Taken.alike {before : World} {rest : Program SinkVerifyResponse}
    {outcome : Except Exit SinkVerifyResponse}
    (taken : Taken sink request draw before now rest) (ends : rest = .ended outcome) :
    AnswersAlike outcome ((sink.verifyAndEffectuate request draw).run World.exec before).1 := by
  cases taken with
  | @ended outcome' alike =>
      cases outcome <;> cases outcome' <;> cases ends <;> exact alike
  | @denying rest reason state denies alike =>
      rcases rest with passed | reason' | ⟨op', further⟩
      · cases denies
      · cases outcome with
        | ok response => cases ends
        | error reason'' =>
            cases ends
            cases denies
            exact alike
      · cases outcome <;> cases ends
  | applying drawn allows => cases outcome <;> cases ends

/-- Once a call has ended, it answers the same for ever. -/
theorem Taken.finished {before : World} {rest : Program SinkVerifyResponse}
    (taken : Taken sink request draw before now rest)
    (finished : ∀ op next, rest ≠ .call op next) (later : World) :
    Taken sink request draw before later rest := by
  cases taken with
  | ended alike => exact .ended alike
  | @denying rest reason state denies alike =>
      rcases rest with passed | reason' | ⟨op, further⟩
      · cases denies
      · exact .denying state denies alike
      · exact absurd rfl (finished op _)
  | applying drawn allows => exact absurd rfl (finished _ _)

end

/-! ### The pool and its serial history -/

/-- The next operation of the thread applies an effect to the network. -/
def Applies [Hashlib] (thread : Thread Call.program) (network : Nat) : Prop :=
  ∃ effect drawn next, thread.rest = .call (I := system) (.apply network effect drawn) next

/-- At most one thread is about to apply an effect to each network. -/
def Apart [Hashlib] (pool : Pool Call.program World) : Prop :=
  ∀ (i j : Nat) (first second : Thread Call.program) (network : Nat),
    pool.threads[i]? = some first → pool.threads[j]? = some second → Applies first network →
    Applies second network → i = j

/-- The serial history has recorded the effects that are about to be applied, and agrees with
the pool otherwise. -/
structure Near [Hashlib] (pool : Pool Call.program World) (state : World) : Prop where
  nearBy : state.NearBy pool.shared
  idle : ∀ network, (∀ thread ∈ pool.threads, ¬ Applies thread network) →
    state.networks network = pool.shared.networks network
  busy : ∀ thread ∈ pool.threads, ∀ network effect drawn next,
    thread.rest = .call (I := system) (.apply network effect drawn) next →
    state.networks network =
      (World.exec (.apply network effect drawn) pool.shared).2.networks network

/-- The thread of a sink call that has not taken effect. -/
def WaitsOn [Hashlib] : Thread Call.program → World → Prop
  | ⟨.verifyAndEffectuate sink request (some hex), past, rest, _⟩, now =>
      Waiting sink request (some hex) now past rest
  | _, _ => False

/-- The thread of a sink call that has taken effect. -/
def TookEffect [Hashlib] : Thread Call.program → World → World → Prop
  | ⟨.verifyAndEffectuate sink request (some hex), _, rest, _⟩, before, now =>
      Taken sink request (some hex) before now rest
  | _, _, _ => False

theorem WaitsOn.sinkCall [Hashlib] {thread : Thread Call.program} {now : World}
    (waits : WaitsOn thread now) : ∃ sink request hex past rest reached,
      thread = ⟨.verifyAndEffectuate sink request (some hex), past, rest, reached⟩ ∧
        Waiting sink request (some hex) now past rest := by
  obtain ⟨call, past, rest, reached⟩ := thread
  rcases call with _ | ⟨sink, request, _ | hex⟩
  · exact waits.elim
  · exact waits.elim
  · exact ⟨sink, request, hex, past, rest, reached, rfl, waits⟩

theorem TookEffect.sinkCall [Hashlib] {thread : Thread Call.program} {before now : World}
    (took : TookEffect thread before now) : ∃ sink request hex past rest reached,
      thread = ⟨.verifyAndEffectuate sink request (some hex), past, rest, reached⟩ ∧
        Taken sink request (some hex) before now rest := by
  obtain ⟨call, past, rest, reached⟩ := thread
  rcases call with _ | ⟨sink, request, _ | hex⟩
  · exact took.elim
  · exact took.elim
  · exact ⟨sink, request, hex, past, rest, reached, rfl, took⟩

/-- Answers of one call that tell its caller the same. -/
def Call.Alike : (call : Call) → Except Exit call.Result → Except Exit call.Result → Prop
  | .validateAndIssue .. => Eq
  | .verifyAndEffectuate .. => AnswersAlike

section

variable [Hashlib] {now state : World} {threads threads' : List (Thread Call.program)}

private theorem networks_other {network other : Nat} (effect : NetworkEffect)
    (drawn : Option Str) (world : World) (different : other ≠ network) :
    (World.exec (.apply network effect drawn) world).2.networks other = world.networks other := by
  cases drawn with
  | none => rfl
  | some hex => exact Function.update_of_ne different ..

private theorem networks_same {network : Nat} {left right : World} (effect : NetworkEffect)
    (drawn : Option Str) (same : left.networks network = right.networks network) :
    (World.exec (.apply network effect drawn) left).2.networks network =
      (World.exec (.apply network effect drawn) right).2.networks network := by
  cases drawn with
  | none => exact same
  | some hex => simp only [World.exec, DemoNetwork.apply, same, Function.update_self]

/-- Threads that apply no effect do not matter. -/
theorem Near.irrelevant (near : Near ⟨now, threads⟩ state)
    (fewer : ∀ thread ∈ threads', ∀ network, Applies thread network → thread ∈ threads)
    (kept : ∀ thread ∈ threads, ∀ network, Applies thread network → thread ∈ threads') :
    Near ⟨now, threads'⟩ state where
  nearBy := near.nearBy
  idle network none_ := near.idle network fun thread listed applies =>
    none_ thread (kept thread listed network applies) applies
  busy thread listed network effect drawn next applies :=
    near.busy thread (fewer thread listed network ⟨effect, drawn, next, applies⟩) network effect drawn
      next applies

variable {index : Nat} {thread after : Thread Call.program}

/-- One thread goes on, and applies no effect before or after. -/
theorem Near.quiet (near : Near ⟨now, threads⟩ state) (found : threads[index]? = some thread)
    (before : ∀ network, ¬ Applies thread network) (later : ∀ network, ¬ Applies after network) :
    Near ⟨now, threads.set index after⟩ state := by
  refine near.irrelevant ?_ ?_
  · intro other listed network applies
    obtain ⟨place, atPlace⟩ := List.mem_iff_getElem?.mp listed
    rcases Pool.getElem?_perform atPlace with ⟨-, rfl⟩ | ⟨-, old⟩
    · exact absurd applies (later network)
    · exact List.mem_of_getElem? old
  · intro other listed network applies
    obtain ⟨place, atPlace⟩ := List.mem_iff_getElem?.mp listed
    have elsewhere : index ≠ place := by
      rintro rfl
      obtain rfl := Option.some.inj (found.symm.trans atPlace)
      exact before network applies
    exact List.mem_of_getElem? (by rw [List.getElem?_set_ne elsewhere, atPlace])

/-- A thread records its effect. -/
theorem Near.apply {network : Nat} {effect : NetworkEffect} {hex : Str}
    {next : Op.Answer (.apply network effect (some hex)) → Program thread.call.Result}
    (near : Near ⟨now, threads⟩ state) (apart : Apart ⟨now, threads⟩)
    (found : threads[index]? = some thread)
    (calls : thread.rest = .call (I := system) (.apply network effect (some hex)) next)
    (later : ∀ network, ¬ Applies after network) :
    Near ⟨(World.exec (.apply network effect (some hex)) now).2, threads.set index after⟩ state := by
  have elsewhere {place : Nat} {other : Thread Call.program} {network' : Nat}
      (atPlace : (threads.set index after)[place]? = some other) (applies : Applies other network') :
      place ≠ index ∧ threads[place]? = some other ∧ network' ≠ network := by
    rcases Pool.getElem?_perform atPlace with ⟨-, rfl⟩ | ⟨different, old⟩
    · exact absurd applies (later network')
    · refine ⟨different, old, ?_⟩
      rintro rfl
      exact different (apart _ _ _ _ _ old found applies ⟨_, _, _, calls⟩)
  have recorded := near.busy thread (List.mem_of_getElem? found) network effect (some hex) next calls
  refine ⟨?_, ?_, ?_⟩
  · have nearBy : state = { now with networks := state.networks } := near.nearBy
    exact nearBy
  · intro network' none_
    by_cases same : network' = network
    · subst same
      exact recorded
    · rw [networks_other effect (some hex) now same]
      refine near.idle network' fun other listed applies => ?_
      obtain ⟨place, atPlace⟩ := List.mem_iff_getElem?.mp listed
      have different : index ≠ place := by
        rintro rfl
        obtain rfl := Option.some.inj (found.symm.trans atPlace)
        obtain ⟨_, _, _, calls'⟩ := applies
        exact same (Op.apply.inj (Procedure.call.inj (calls'.symm.trans calls)).1).1
      exact none_ other (List.mem_of_getElem? (by rw [List.getElem?_set_ne different, atPlace]))
        applies
  · intro other listed network' effect' drawn next' applies
    obtain ⟨place, atPlace⟩ := List.mem_iff_getElem?.mp listed
    obtain ⟨-, old, different⟩ := elsewhere atPlace ⟨_, _, _, applies⟩
    rw [near.busy other (List.mem_of_getElem? old) network' effect' drawn next' applies]
    exact networks_same effect' drawn (networks_other effect (some hex) now different).symm

/-- A thread consumes its authority, and applies its effect next. -/
theorem Near.consume {sink : NetworkFinalitySink} {request : SinkRequest}
    {authority : NetworkFinalityAuthority} {hex : Str}
    {next : Op.Answer (.apply sink.network (NetworkFinalitySink.effectOf request authority)
      (some hex)) → Program after.call.Result}
    (near : Near ⟨now, threads⟩ state) (found : threads[index]? = some thread)
    (before : ∀ network, ¬ Applies thread network)
    (calls : after.rest = .call (I := system) (.apply sink.network
      (NetworkFinalitySink.effectOf request authority) (some hex)) next)
    (apart : Apart ⟨(World.exec (.consume authority.authorityId) now).2, threads.set index after⟩) :
    Near ⟨(World.exec (.consume authority.authorityId) now).2, threads.set index after⟩
      (sink.applied request authority hex state) := by
  have untouched : (World.exec (.consume authority.authorityId) now).2.networks = now.networks :=
    World.exec_networks _ now (by simp)
  have nearBy : state = { now with networks := state.networks } := near.nearBy
  have consumed : (World.exec (.consume authority.authorityId) state).2 =
      { (World.exec (.consume authority.authorityId) now).2 with networks := state.networks } := by
    rw [nearBy]
    simp only [World.exec]
    split <;> rfl
  have old {place : Nat} {other : Thread Call.program} {network : Nat} (different : place ≠ index)
      (atPlace : threads[place]? = some other) (applies : Applies other network) :
      network ≠ sink.network := by
    rintro rfl
    refine different (apart place index other after _ ?_ ?_ applies ⟨_, _, _, calls⟩)
    · exact (List.getElem?_set_ne different.symm).trans atPlace
    · exact List.getElem?_set_self (List.getElem?_eq_some_iff.mp found).1
  have elsewhere {place : Nat} {other : Thread Call.program} {network : Nat}
      (atPlace : threads[place]? = some other) (applies : Applies other network) : place ≠ index := by
    rintro rfl
    obtain rfl := Option.some.inj (found.symm.trans atPlace)
    exact before network applies
  -- The effect comes on top of what the history has recorded on the other networks.
  have other {network : Nat} (different : network ≠ sink.network) :
      (sink.applied request authority hex state).networks network = state.networks network := by
    rw [NetworkFinalitySink.applied, networks_other _ _ _ different, consumed]
  have own : state.networks sink.network = now.networks sink.network := by
    refine near.idle _ fun other listed applies => ?_
    obtain ⟨place, atPlace⟩ := List.mem_iff_getElem?.mp listed
    exact old (elsewhere atPlace applies) atPlace applies rfl
  refine ⟨?_, ?_, ?_⟩
  · have applied : sink.applied request authority hex state =
        { (World.exec (.consume authority.authorityId) state).2 with
          networks := (sink.applied request authority hex state).networks } := rfl
    rw [consumed] at applied
    exact applied
  · intro network none_
    have different : network ≠ sink.network := by
      rintro rfl
      refine none_ after ?_ ⟨_, _, _, calls⟩
      exact List.mem_of_getElem? (List.getElem?_set_self (List.getElem?_eq_some_iff.mp found).1)
    rw [other different]
    refine (near.idle network fun thread' listed applies => ?_).trans (congrFun untouched _).symm
    obtain ⟨place, atPlace⟩ := List.mem_iff_getElem?.mp listed
    have kept : (threads.set index after)[place]? = some thread' :=
      (List.getElem?_set_ne (elsewhere atPlace applies).symm).trans atPlace
    exact none_ thread' (List.mem_of_getElem? kept) applies
  · intro thread' listed network effect drawn next' applies
    obtain ⟨place, atPlace⟩ := List.mem_iff_getElem?.mp listed
    rcases Pool.getElem?_perform atPlace with ⟨-, rfl⟩ | ⟨different, atPlace⟩
    · obtain ⟨rfl, rfl, rfl⟩ := Op.apply.inj (Procedure.call.inj (applies.symm.trans calls)).1
      refine networks_same _ _ ?_
      rw [consumed]
      exact own.trans (congrFun untouched _).symm
    · have apart' := old different atPlace ⟨_, _, _, applies⟩
      rw [other apart', near.busy thread' (List.mem_of_getElem? atPlace) network effect drawn next'
        applies]
      exact networks_same effect drawn (congrFun untouched _).symm

end

section

variable [Hashlib] {schedule : Schedule Call.program World} {environment : World → World → Prop}

/-- A sink call starts waiting. -/
private theorem waitsOn_start (sink : NetworkFinalitySink) (request : SinkRequest) (hex : Str)
    (now : World) :
    WaitsOn (Thread.start Call.program (.verifyAndEffectuate sink request (some hex))) now := by
  obtain ⟨next, begins⟩ : ∃ next, sink.verifyAndEffectuate request (some hex) =
      .call .clock next := ⟨_, rfl⟩
  change Waiting sink request (some hex) now [] (sink.verifyAndEffectuate request _)
  rw [begins]
  exact .reading (by simp) (.inl rfl)

variable {pool : Pool Call.program World} {state : World} {index : Nat}

/-- A thread that waits goes on waiting, or takes effect. -/
private theorem waitsOn_advance {sink : NetworkFinalitySink} {request : SinkRequest} {hex : Str}
    {past : List (Event system)} {rest : Program SinkVerifyResponse} {op : Op}
    {next : op.Answer → Program SinkVerifyResponse}
    {reached : (sink.verifyAndEffectuate request (some hex)).Path past rest}
    {after : Thread Call.program}
    (found : pool.threads[index]? =
      some ⟨.verifyAndEffectuate sink request (some hex), past, rest, reached⟩)
    (calls : rest = .call op next)
    (advanced : after = Thread.advance
      ⟨.verifyAndEffectuate sink request (some hex), past, rest, reached⟩ calls
        (World.exec op pool.shared).1)
    (near : Near pool state)
    (apart : Apart ⟨(World.exec op pool.shared).2, pool.threads.set index after⟩)
    (waiting : Waiting sink request (some hex) pool.shared past rest) :
    World.SinksMove pool.shared (World.exec op pool.shared).2 ∧
      ∃ takes : Bool, Near ⟨(World.exec op pool.shared).2, pool.threads.set index after⟩
          (if takes then ((sink.verifyAndEffectuate request (some hex)).run World.exec state).2
            else state) ∧
        if takes then TookEffect after state (World.exec op pool.shared).2
        else WaitsOn after (World.exec op pool.shared).2 := by
  subst calls
  have idle : ∀ network, ¬ Applies ⟨.verifyAndEffectuate sink request (some hex), past,
      .call op next, reached⟩ network := by
    rintro network ⟨_, _, _, applies⟩
    exact Waiting.not_applies waiting _ _ _ _ applies
  have outcome := Waiting.advance waiting reached near.nearBy
  subst advanced
  cases outcome with
  | waits same waiting' =>
      rw [same]
      refine ⟨.refl _, false, Near.quiet near found idle ?_, waiting'⟩
      rintro network ⟨_, _, _, applies⟩
      exact Waiting.not_applies waiting' _ _ _ _ applies
  | answers same taken idle' unchanged =>
      rw [same]
      refine ⟨.refl _, true, ?_, taken⟩
      rw [if_pos rfl, unchanged]
      refine Near.quiet near found idle ?_
      rintro network ⟨_, _, _, applies⟩
      exact idle' _ _ _ _ applies
  | consumes authority hex' drawn consume applies taken applied =>
      obtain rfl := Option.some.inj drawn
      subst consume
      refine ⟨.consume _ _, true, ?_, taken⟩
      rw [if_pos rfl, applied]
      exact Near.consume near found idle applies apart

/-- A thread that has taken effect goes on. -/
private theorem tookEffect_advance {sink : NetworkFinalitySink} {request : SinkRequest} {hex : Str}
    {past : List (Event system)} {rest : Program SinkVerifyResponse} {op : Op}
    {next : op.Answer → Program SinkVerifyResponse}
    {reached : (sink.verifyAndEffectuate request (some hex)).Path past rest}
    {after : Thread Call.program} {before : World}
    (found : pool.threads[index]? =
      some ⟨.verifyAndEffectuate sink request (some hex), past, rest, reached⟩)
    (calls : rest = .call op next)
    (advanced : after = Thread.advance
      ⟨.verifyAndEffectuate sink request (some hex), past, rest, reached⟩ calls
        (World.exec op pool.shared).1)
    (near : Near pool state) (apart : Apart pool)
    (taken : Taken sink request (some hex) before pool.shared rest) :
    World.SinksMove pool.shared (World.exec op pool.shared).2 ∧
      TookEffect after before (World.exec op pool.shared).2 ∧
      Near ⟨(World.exec op pool.shared).2, pool.threads.set index after⟩ state := by
  subst calls
  obtain ⟨idle, taken', quietly⟩ := Taken.advance taken
  have idle' : ∀ network, ¬ Applies after network := by
    subst advanced
    rintro network ⟨_, _, _, applies⟩
    exact idle _ _ _ _ applies
  subst advanced
  rcases quietly with ⟨same, reads⟩ | ⟨effect, hex', rfl⟩
  · rw [same]
    refine ⟨.refl _, taken', Near.quiet near found ?_ idle'⟩
    rintro network ⟨_, _, _, applies⟩
    obtain ⟨rfl, -⟩ := Procedure.call.inj applies
    cases reads
  · exact ⟨.apply .., Taken.moves taken' (.apply ..), Near.apply near apart found rfl idle'⟩

/-- Sink calls take effect where `WaitsOn` ends and `TookEffect` begins. -/
theorem sink_linearizationPoints
    (sinkCalls : ∀ pool call, schedule.starts pool call →
      ∃ sink request hex, call = .verifyAndEffectuate sink request (some hex))
    (quiet : ∀ pool later, schedule.changes pool later →
      environment pool.shared later ∧ ∀ thread ∈ pool.threads, thread.Finished) :
    LinearizationPoints Call.program World.exec schedule environment Call.Alike Apart WaitsOn
      TookEffect World.SinksMove Near where
  initial state := ⟨rfl, fun _ _ => rfl, by simp [Pool.initial]⟩
  start := by
    intro pool call state allowed near
    obtain ⟨sink, request, hex, rfl⟩ := sinkCalls _ _ allowed
    refine ⟨?_, near.irrelevant ?_ fun thread listed _ _ => List.mem_append_left _ listed⟩
    · exact waitsOn_start ..
    · intro thread listed network applies
      rcases List.mem_append.mp listed with old | new
      · exact old
      · rw [List.mem_singleton.mp new] at applies
        obtain ⟨_, _, _, calls⟩ := applies
        cases calls
  unfinished := by
    intro thread now waits finished
    obtain ⟨sink, request, hex, past, rest, reached, rfl, waiting⟩ := waits.sinkCall
    obtain ⟨op, next, calls⟩ := waiting.calls
    exact finished op next calls
  alike := by
    intro thread before now outcome took ended
    obtain ⟨sink, request, hex, past, rest, reached, rfl, taken⟩ := took.sinkCall
    exact taken.alike ended
  settled := by
    intro pool state near finished
    have networks : state.networks = pool.shared.networks := by
      funext network
      refine near.idle network fun thread listed applies => ?_
      obtain ⟨_, _, _, calls⟩ := applies
      exact finished thread listed _ _ calls
    have nearBy : state = { pool.shared with networks := state.networks } := near.nearBy
    rw [nearBy, networks]
  waiting_moves := by
    intro thread now later moves waits
    obtain ⟨sink, request, hex, past, rest, reached, rfl, waiting⟩ := waits.sinkCall
    exact waiting.moves moves
  done_moves := by
    intro thread before now later moves took
    obtain ⟨sink, request, hex, past, rest, reached, rfl, taken⟩ := took.sinkCall
    exact taken.moves moves
  waits := by
    intro pool state index thread op next found calls near _ apart waits
    obtain ⟨sink, request, hex, past, rest, reached, rfl, waiting⟩ := waits.sinkCall
    exact waitsOn_advance found calls rfl near apart waiting
  goes_on := by
    intro pool state index thread op before next found calls near apart took
    obtain ⟨sink, request, hex, past, rest, reached, rfl, taken⟩ := took.sinkCall
    exact tookEffect_advance found calls rfl near apart taken
  change := by
    intro pool later allowed
    obtain ⟨changed, finished⟩ := quiet _ _ allowed
    refine ⟨changed, finished, rfl, fun _ _ => rfl, ?_⟩
    intro thread listed network effect drawn next applies
    exact absurd applies (finished thread listed _ _)
  done_change := by
    intro thread before now later finished took
    obtain ⟨sink, request, hex, past, rest, reached, rfl, taken⟩ := took.sinkCall
    exact taken.finished finished later

end

/-! ### Under the locks -/

section

variable [Hashlib] {backends : Backends} {schedule : Schedule Call.program World} {world : World}
  {environment : World → World → Prop}

/-- A call whose effect is next holds the lock of the network. -/
private theorem applies_locks {thread : Thread (Invocation.program backends)} {network : Nat}
    (applies : Applies (thread.unlocked (Invocation.unlocked_program backends)) network) :
    Lock.network network ∈ thread.locks := by
  obtain ⟨effect, drawn, next, applies⟩ := applies
  obtain ⟨⟨lock, call⟩, past, rest, reached⟩ := thread
  have calls : rest.unlocked = .call (.apply network effect drawn) next := applies
  have plain := Path.unlocked reached
  rw [Invocation.unlocked_program, calls] at plain
  cases call with
  | validateAndIssue ped draws candidate =>
      cases (uses_call.mp (ProtectedEnforcementDomain.validateAndIssue_uses.remains plain)).1
  | verifyAndEffectuate sink request draw =>
      obtain ⟨authority, guards, inner, inside⟩ := inside_of_write reached calls rfl
      obtain rfl : network = sink.network := by
        cases NetworkFinalitySink.verifyAndEffectuate_stage plain with
        | guarding written next' unreturned =>
            obtain ⟨_, -, same⟩ := next' _ _ rfl rfl
            cases same
        | refused _ _ _ _ _ ended => cases ended
        | consumed _ _ _ _ next' => exact (Op.apply.inj (Procedure.call.inj next').1).1
        | applied _ _ _ _ ended => cases ended
        | failed _ _ _ _ next' => cases (Procedure.call.inj next').1
        | undone _ _ _ _ _ ended => cases ended
      exact inside.locks.2

/-- So at most one call is about to apply an effect to each network. -/
private theorem apart_of_exclusive {pool : LockedPool backends} (exclusive : Pool.Exclusive pool) :
    Apart pool.plain := by
  intro i j first second network atFirst atSecond applies applies'
  obtain ⟨thread, found, rfl⟩ : ∃ thread, pool.threads[i]? = some thread ∧
      thread.unlocked _ = first := by simpa [Pool.unlocked] using atFirst
  obtain ⟨other, found', rfl⟩ : ∃ thread, pool.threads[j]? = some thread ∧
      thread.unlocked _ = second := by simpa [Pool.unlocked] using atSecond
  exact exclusive found found' (applies_locks applies) (applies_locks applies')

end

namespace Reference

/-- Two sinks of one network, asked to effectuate the issued authority, take turns. -/
def race : @LockedPool .checksum ⟨true, true⟩ :=
  Pool.play (@World.exec .checksum) (List.replicate 36 [0, 1]).flatten
    ⟨issuedWorld, invocations.tail.map (Thread.start (@Invocation.program .checksum ⟨true, true⟩))⟩

/-- Only sink calls with digits for an effect may start. -/
def sinksOnly : Schedule (@Call.program .checksum) World :=
  ⟨fun _ call => ∃ sink request hex, call = .verifyAndEffectuate sink request (some hex),
    fun _ _ => False⟩

theorem race_run : @LockedRun .checksum ⟨true, true⟩ sinksOnly issuedWorld race := by
  refine Relation.ReflTransGen.trans (@LockedRun.started .checksum _ _ _ invocations.tail
    fun pool => ?_) (Pool.play_steps _ _)
  simp only [invocations, List.tail_cons, List.mem_cons, List.not_mem_nil, or_false]
  rintro invocation (rfl | rfl)
  · exact ⟨_, _, _, rfl⟩
  · exact ⟨_, _, _, rfl⟩

end Reference
end NetworkFinality
