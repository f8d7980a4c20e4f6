import NetworkFinality.Model.Restart
import NetworkFinality.Safety.Agreement

/-!
# Currency at the commit point

A sink reads the clock, the protected state reference and the epochs once, before it
takes the lock, and under the lock it looks at the consumption flag only. What it has
read may therefore be outdated when the effect is applied. The authority of an effect
is current exactly as long as the environment leaves what such a call has read, and the
clock stays before the expiry.
-/

namespace NetworkFinality

open Python Semantics Procedure

/-- The revocation epoch is advanced. -/
def World.revoke (world : World) : World :=
  { world with
    state := { world.state with revocationEpoch := world.state.revocationEpoch + 1 } }

theorem World.revoke_environment (world : World) : World.Environment world world.revoke :=
  ⟨rfl, rfl, rfl, rfl⟩

theorem World.revoke_epoch (world : World) :
    world.revoke.state.epoch .revocation ≠ world.state.epoch .revocation :=
  Int.ne_of_gt (Int.lt_succ _)

/-- The authority binds the state that the world holds, and has not expired. -/
structure Current (world : World) (authority : NetworkFinalityAuthority) : Prop where
  binds : BindsState authority.binding world
  unexpired : world.clock < authority.lifetime.expiresAt

/-- The operation reads a part of the state that authorities bind. -/
def Op.readsBinding : Op → Bool
  | .epoch _ | .protectedStateReference => true
  | _ => false

theorem Op.observes_of_readsBinding {op : Op} (read : op.readsBinding = true) :
    op.observesState = true := by
  cases op <;> first | rfl | cases read

section

variable [Hashlib] {schedule : Schedule Call.program World} {world : World}
  {pool : Pool Call.program World} {thread : Thread Call.program}

/-- The call may still apply its effect. -/
def MayApply (thread : Thread Call.program) : Prop :=
  ∃ network effect draw, thread.rest.MayPerform (Op.apply network effect draw)

/-- The environment leaves what calls that may still apply their effects have read: the
bound state as it is, and a clock before the expiry of the authority before it. -/
structure Undisturbed (schedule : Schedule Call.program World) : Prop where
  state : ∀ pool world, schedule.changes pool world → ∀ thread ∈ pool.threads, MayApply thread →
    ∀ event ∈ thread.past, event.op.readsBinding = true →
      (World.exec event.op world).1 = (World.exec event.op pool.shared).1
  clock : ∀ pool world, schedule.changes pool world → ∀ thread ∈ pool.threads, MayApply thread →
    thread.past ≠ [] → ∀ authority, thread.call.presented = some authority →
      pool.shared.clock < authority.lifetime.expiresAt →
        world.clock < authority.lifetime.expiresAt

/-- Any call may start at any time, and the environment leaves what calls that may still
apply their effects have read. -/
def undisturbed : Schedule Call.program World where
  starts _ _ := True
  changes pool world :=
    ∀ thread ∈ pool.threads, MayApply thread →
      (∀ event ∈ thread.past, event.op.readsBinding = true →
        (World.exec event.op world).1 = (World.exec event.op pool.shared).1) ∧
      (thread.past ≠ [] → ∀ authority, thread.call.presented = some authority →
        pool.shared.clock < authority.lifetime.expiresAt →
          world.clock < authority.lifetime.expiresAt)

theorem undisturbed_undisturbed : Undisturbed undisturbed where
  state _ _ allowed thread member may := (allowed thread member may).1
  clock _ _ allowed thread member may := (allowed thread member may).2

/-- What the call has performed when its effect is next. -/
def commitEvents (authority : NetworkFinalityAuthority) (now : DateTime)
    (evidence : EvidenceRecord) (activation : ActivationRecord) : List (Event system) :=
  guardEvents authority now evidence activation ++
    [⟨.isUsed authority.authorityId, .ok false⟩, ⟨.consume authority.authorityId, .ok true⟩]

/-- The way of a call that applies its effect leads over the events of admitted guards. -/
theorem commit_path {past : List (Event system)} {network : Nat} {effect : NetworkEffect}
    {draw : Option Str} {call : Call}
    {next : Op.Answer (.apply network effect draw) → Program call.Result}
    (path : call.program.Path past (.call (.apply network effect draw) next)) :
    ∃ authority now evidence activation, call.presented = some authority ∧
      now < authority.lifetime.expiresAt ∧ past = commitEvents authority now evidence activation := by
  cases call with
  | validateAndIssue ped draws candidate =>
      have uses := ProtectedEnforcementDomain.validateAndIssue_uses.remains path
      cases (uses_call.mp uses).1
  | verifyAndEffectuate sink request draw =>
      obtain ⟨authority, now, evidence, activation, admitted, split⟩ :=
        NetworkFinalitySink.apply_next path
      refine ⟨authority, now, evidence, activation, admitted.presented, ?_, split⟩
      have unexpired := admitted.unexpired
      rw [DateTime.le_iff] at unexpired
      rw [DateTime.lt_iff]
      omega

theorem MayApply.earlier {op : Op} {next : Op.Answer op → Program thread.call.Result}
    {calls : thread.rest = .call op next} {answer : Op.Answer op}
    (may : MayApply (thread.advance calls answer)) : MayApply thread := by
  obtain ⟨network, effect, draw, performs⟩ := may
  have path : thread.rest.Path [⟨op, answer⟩] (next answer) := by
    rw [calls]
    exact .next .here
  exact ⟨network, effect, draw, performs.earlier path⟩

/-- A call that may still apply its effect is on the way of admitted guards. -/
theorem MayApply.way (may : MayApply thread) :
    ∃ authority now evidence activation more, thread.call.presented = some authority ∧
      now < authority.lifetime.expiresAt ∧
      thread.past ++ more = commitEvents authority now evidence activation := by
  obtain ⟨network, effect, draw, more, next, path⟩ := may
  obtain ⟨authority, now, evidence, activation, presented, unexpired, split⟩ :=
    commit_path (thread.reached.trans path)
  exact ⟨authority, now, evidence, activation, more, presented, unexpired, split⟩

/-- The clock of a call that may still apply its effect is before the expiry. -/
theorem clock_before_expiry (undisturbed : Undisturbed schedule)
    (steps : Pool.Steps World.exec schedule (Pool.initial Call.program world) pool)
    (member : thread ∈ pool.threads) (may : MayApply thread) {now : DateTime}
    (read : ⟨.clock, now⟩ ∈ thread.past) {authority : NetworkFinalityAuthority}
    (presented : thread.call.presented = some authority) :
    pool.shared.clock < authority.lifetime.expiresAt := by
  refine Pool.facts_hold
    (fun call (_ : Event system) world => ∀ authority, call.presented = some authority →
      world.clock < authority.lifetime.expiresAt)
    (fun thread event => MayApply thread ∧ event.op = .clock) ?_ ?_ ?_ ?_ steps thread member _
    read ⟨may, rfl⟩ authority presented
  · rintro thread op next calls world ⟨may, rfl⟩ authority presented
    obtain ⟨authority', now, evidence, activation, more, presented', unexpired, way⟩ := may.way
    obtain rfl := Option.some.inj (presented.symm.trans presented')
    have performed : ⟨.clock, world.clock⟩ ∈ commitEvents authority now evidence activation := by
      rw [← way]
      simp [World.exec]
    obtain rfl : world.clock = now := by
      simpa [commitEvents, guardEvents] using performed
    rwa [World.exec_clock]
  · rintro thread op next calls answer event ⟨may, clock⟩
    exact ⟨may.earlier, clock⟩
  · intro call event op world before authority presented
    rw [World.exec_clock]
    exact before authority presented
  · rintro pool world allowed thread member event performed ⟨may, -⟩ before authority presented
    exact undisturbed.clock pool world allowed thread member may (List.ne_nil_of_mem performed)
      authority presented (before authority presented)

/-- What a call that may still apply its effect has read of the bound state is current. -/
theorem binding_current (undisturbed : Undisturbed schedule)
    (steps : Pool.Steps World.exec schedule (Pool.initial Call.program world) pool)
    (member : thread ∈ pool.threads) (may : MayApply thread) {event : Event system}
    (performed : event ∈ thread.past) (read : event.op.readsBinding = true) :
    event.answer = (World.exec event.op pool.shared).1 := by
  refine Pool.answers_current World.observes
    (fun thread (op : Op) => MayApply thread ∧ op.readsBinding = true) ?_ ?_ steps thread member
    event performed (Op.observes_of_readsBinding read) ⟨may, read⟩
  · rintro thread op next calls answer other ⟨may, reads⟩
    exact ⟨may.earlier, reads⟩
  · rintro pool world allowed thread member event performed - ⟨may, reads⟩
    exact undisturbed.state pool world allowed thread member may event performed reads

/-- Under every interleaving with an environment that leaves what calls about to apply an
effect have read, the authority of an effect is current at the step that applies it. -/
theorem effects_current (undisturbed : Undisturbed schedule)
    (steps : Pool.Steps World.exec schedule (Pool.initial Call.program world) pool) :
    ∀ thread ∈ pool.threads, ∀ network effect draw next,
      thread.rest = .call (Op.apply network effect draw) next →
      ∃ authority, thread.call.presented = some authority ∧ Current pool.shared authority := by
  intro thread member network effect draw next calls
  have path := thread.reached
  rw [calls] at path
  obtain ⟨authority, now, evidence, activation, presented, -, split⟩ := commit_path path
  have may : MayApply thread := ⟨network, effect, draw, [], next, by rw [calls]; exact .here⟩
  have reads : ∀ event ∈ guardEvents authority now evidence activation, event ∈ thread.past := by
    intro event guard
    rw [split, commitEvents]
    exact List.mem_append_left _ guard
  have current : ∀ event ∈ guardEvents authority now evidence activation,
      event.op.readsBinding = true → event.answer = (World.exec event.op pool.shared).1 :=
    fun event guard => binding_current undisturbed steps member may (reads event guard)
  refine ⟨authority, presented, ⟨?_, ?_⟩, ?_⟩
  · exact (current ⟨.protectedStateReference, _⟩ (by simp [guardEvents]) rfl).symm
  · intro epoch
    refine (current ⟨.epoch epoch, (authority.binding.epoch epoch : Int)⟩ ?_ rfl).symm
    cases epoch <;> simp [guardEvents, AuthorityBinding.epoch]
  · exact clock_before_expiry undisturbed steps member may
      (reads ⟨.clock, now⟩ (by simp [guardEvents])) presented

/-- A call whose guards have passed goes on to its effect, whatever the environment does to
the clock and the state before the call takes the lock. -/
theorem commits_after_change {initial changed : World} {log : List (Nat × Event system)}
    {threads : List (Thread Call.program)} {sink : NetworkFinalitySink} {request : SinkRequest}
    {authority : NetworkFinalityAuthority} {evidence : EvidenceRecord}
    {activation : ActivationRecord}
    (timeline : Timeline World.exec schedule initial log ⟨world, threads⟩)
    (starts : ∀ pool call, schedule.starts pool call)
    (changes : ∀ pool, pool.shared = world → schedule.changes pool changed)
    (permitted : Permitted world sink request authority evidence activation)
    (environment : World.Environment world changed) (draw : Option Str) :
    ∃ (later : List (Nat × Event system)) (thread : Thread Call.program)
      (next : Op.Answer (.apply sink.network (NetworkFinalitySink.effectOf request authority) draw) →
        Program thread.call.Result),
      Timeline World.exec schedule initial later
        ⟨(World.exec (.consume authority.authorityId) changed).2, threads ++ [thread]⟩ ∧
      thread.call = .verifyAndEffectuate sink request draw ∧
      thread.rest = .call (.apply sink.network (NetworkFinalitySink.effectOf request authority) draw)
        next := by
  have returned : (sink.verifyAndEffectuate request draw).Returns
      (guardEvents authority world.clock evidence activation ++
        NetworkFinalitySink.lockEvents sink request authority draw [])
      (NetworkFinalitySink.allow request authority guardChecks []) :=
    NetworkFinalitySink.verifyAndEffectuate_returns.mpr
      ⟨authority, world.clock, evidence, activation, [], permitted.toAdmitted, rfl, rfl⟩
  obtain ⟨guarded, guards, lock⟩ := Path.split returned
  have split : NetworkFinalitySink.lockEvents sink request authority draw [] =
      [⟨.isUsed authority.authorityId, .ok false⟩, ⟨.consume authority.authorityId, .ok true⟩] ++
        [⟨.apply sink.network (NetworkFinalitySink.effectOf request authority) draw, .ok []⟩] := rfl
  rw [split] at lock
  obtain ⟨committing, consuming, applying⟩ := lock.split
  obtain ⟨next, rfl⟩ := path_cons_call applying
  -- The stores under the lock are those the guards have read.
  have unused : (World.exec (.isUsed authority.authorityId) changed).1 = .ok false := by
    simp only [World.exec, environment.activationStore]
    exact permitted.unused
  have consumes : (World.exec (.consume authority.authorityId) changed).1 = .ok true := by
    obtain ⟨record, present, free⟩ :=
      World.unused_of_reads permitted.activationStored permitted.unused
    rw [← environment.activations] at present
    exact World.exec_consume_unused changed present free
  have locked : Answered World.exec changed
      [⟨.isUsed authority.authorityId, .ok false⟩, ⟨.consume authority.authorityId, .ok true⟩]
      (World.exec (.consume authority.authorityId) changed).2 :=
    ⟨unused.symm, consumes.symm, rfl⟩
  obtain ⟨later, reached⟩ := timeline.interrupted
    (starts _ (.verifyAndEffectuate sink request draw)) guards permitted.guards_answered changes
    consuming locked
  exact ⟨later, ⟨.verifyAndEffectuate sink request draw, _, _, _⟩, next, reached, rfl, rfl⟩

/-- An epoch that has changed since the guards leaves the authority outdated. -/
theorem outdated {changed : World} {sink : NetworkFinalitySink} {request : SinkRequest}
    {authority : NetworkFinalityAuthority} {evidence : EvidenceRecord}
    {activation : ActivationRecord}
    (permitted : Permitted world sink request authority evidence activation) {epoch : Epoch}
    (different : changed.state.epoch epoch ≠ world.state.epoch epoch) :
    ¬ Current (World.exec (.consume authority.authorityId) changed).2 authority := by
  intro current
  have after := current.binds.epochs epoch
  have kept := World.observes.stable (.epoch epoch) rfl (.consume authority.authorityId) changed
  exact different (kept.symm.trans (after.trans (permitted.epochs epoch).symm))

end

namespace Reference

/-- The guards of the effectuated request pass in the issued world, the environment takes a
step there, and the request goes on to its effect. -/
theorem effect_next (schedule : Schedule (@Call.program .checksum) World) {changed : World}
    (starts : ∀ pool call, schedule.starts pool call)
    (changes : ∀ pool, pool.shared = issuedWorld → schedule.changes pool changed)
    (environment : World.Environment issuedWorld changed) :
    ∃ pool, Pool.Steps (@World.exec .checksum) schedule
        (Pool.initial (@Call.program .checksum) start.world) pool ∧
      ∃ thread ∈ pool.threads, ∃ network effect draw next sink request authority evidence activation,
        thread.rest = .call (Op.apply network effect draw) next ∧
        (∃ effectId, (@World.exec .checksum (Op.apply network effect draw) pool.shared).1 =
          .ok effectId) ∧
        thread.call.presented = some authority ∧
        @Permitted .checksum issuedWorld sink request authority evidence activation ∧
        pool.shared = (@World.exec .checksum (.consume authority.authorityId) changed).2 := by
  obtain ⟨response, ran⟩ := effectuated_response
  rw [effectuated] at ran
  obtain ⟨authority, evidence, activation, hex, permitted, -⟩ :=
    (@NetworkFinalitySink.verifyAndEffectuate_ok _ _ _ _ .checksum _ _).mp ran
  have none_yet : Timeline (@World.exec .checksum) schedule start.world []
      (Pool.initial (@Call.program .checksum) start.world) := .initial
  obtain ⟨log, threads, issuing⟩ : ∃ log threads, Timeline (@World.exec .checksum)
      schedule start.world log ⟨issuedWorld, threads⟩ := by
    have ran := none_yet.whole (starts _ (.validateAndIssue start.ped draws candidate))
    rw [issuedWorld, issued]
    exact ⟨_, _, ran⟩
  obtain ⟨later, thread, next, committing, called, calls⟩ :=
    @commits_after_change .checksum _ _ _ _ _ _ _ _ _ _ _ issuing starts changes permitted
      environment (some hex)
  have presented : thread.call.presented = some authority := by
    rw [called]
    exact @Permitted.toAdmitted .checksum _ _ _ _ _ _ permitted |>.presented
  exact ⟨_, committing.steps, thread, by simp, _, _, _, next, _, _, authority, evidence, activation,
    calls, ⟨_, rfl⟩, presented, permitted, rfl⟩

theorem effects_current_issued :
    ∃ pool, Pool.Steps (@World.exec .checksum) (@undisturbed .checksum)
        (Pool.initial (@Call.program .checksum) start.world) pool ∧
      ∃ thread ∈ pool.threads, ∃ network effect draw next,
        thread.rest = .call (Op.apply network effect draw) next ∧
        ∃ authority, thread.call.presented = some authority ∧ Current pool.shared authority := by
  obtain ⟨pool, steps, thread, member, network, effect, draw, next, -, -, -, -, -, calls, -⟩ :=
    effect_next (@undisturbed .checksum) (fun _ _ => trivial)
      (fun pool shared thread _ _ => by
        rw [shared]
        exact ⟨fun _ _ _ => rfl, fun _ _ _ before => before⟩)
      ⟨rfl, rfl, rfl, rfl⟩
  exact ⟨pool, steps, thread, member, network, effect, draw, next, calls,
    @effects_current .checksum _ _ _ (@undisturbed_undisturbed .checksum) steps thread member
      network effect draw next calls⟩

/-- The revocation lands between the guards of a request and its effect, which is recorded
under an authority that predates it. -/
theorem revocation_overridden :
    ∃ pool, Pool.Steps (@World.exec .checksum) (@unrestricted .checksum)
        (Pool.initial (@Call.program .checksum) start.world) pool ∧
      ∃ thread ∈ pool.threads, ∃ network effect draw next,
        thread.rest = .call (Op.apply network effect draw) next ∧
        (∃ effectId, (@World.exec .checksum (Op.apply network effect draw) pool.shared).1 =
          .ok effectId) ∧
        ∃ authority, thread.call.presented = some authority ∧ ¬ Current pool.shared authority := by
  obtain ⟨pool, steps, thread, member, network, effect, draw, next, sink, request, authority,
      evidence, activation, calls, applied, presented, permitted, shared⟩ :=
    effect_next (@unrestricted .checksum) (fun _ _ => trivial)
      (fun pool shared => by
        change World.Environment pool.shared issuedWorld.revoke
        rw [shared]
        exact issuedWorld.revoke_environment)
      issuedWorld.revoke_environment
  refine ⟨pool, steps, thread, member, network, effect, draw, next, calls, applied, authority,
    presented, ?_⟩
  rw [shared]
  exact @outdated .checksum issuedWorld issuedWorld.revoke sink request authority evidence activation
    permitted .revocation issuedWorld.revoke_epoch

end Reference
end NetworkFinality
