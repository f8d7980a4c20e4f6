import NetworkFinality.Model.Locks
import NetworkFinality.Safety.Accounting

/-!
# What the locks give

Calls under their locks do not deadlock. Without the locks their runs are runs of the
calls, so every result about all interleavings holds of them. From its consumption to its
effect a call holds the lock of its sink and that of its network. So an authority that is
used while no network is locked has had its effect, and sinks that share one network never
get in each other's way between the second look at the flag and the consumption.
-/

namespace NetworkFinality

open Python Semantics Procedure

variable [Hashlib] {backends : Backends} {schedule : Schedule Call.program World} {world : World}

/-- Calls under their locks. -/
abbrev LockedPool (backends : Backends) := Pool (Invocation.program backends) World

/-- The same calls without their locks. -/
abbrev LockedPool.plain (pool : LockedPool backends) : Pool Call.program World :=
  pool.unlocked (Invocation.unlocked_program backends)

/-- The pool is reached by calls under their locks, on a schedule of calls. -/
abbrev LockedRun (backends : Backends) (schedule : Schedule Call.program World) (world : World)
    (pool : LockedPool backends) : Prop :=
  Pool.LockedSteps World.exec (Pool.locked (Invocation.unlocked_program backends) schedule)
    (Pool.initial (Invocation.program backends) world) pool

/-- Every run under the locks is a run without them. -/
theorem LockedRun.plain {pool : LockedPool backends} (run : LockedRun backends schedule world pool) :
    Pool.Steps World.exec schedule (Pool.initial Call.program world) pool.plain :=
  Pool.LockedSteps.unlocked _ run

theorem LockedRun.exclusive {pool : LockedPool backends}
    (run : LockedRun backends schedule world pool) : Pool.Exclusive pool :=
  Pool.LockedSteps.exclusive run (Pool.exclusive_initial world)

/-- Calls that may start have started. -/
theorem LockedRun.started {invocations : List Invocation}
    (allowed : ∀ pool, ∀ invocation ∈ invocations, schedule.starts pool invocation.call) :
    LockedRun backends schedule world ⟨world, invocations.map (Thread.start _)⟩ := by
  induction invocations using List.reverseRecOn with
  | nil => exact .refl
  | append_singleton earlier invocation inductionHypothesis =>
      have before := inductionHypothesis fun pool invocation member =>
        allowed pool _ (List.mem_append_left _ member)
      rw [List.map_append]
      exact before.tail (.start (allowed _ _ (List.mem_append_right _ (List.mem_singleton_self _))))

/-- Calls never deadlock. While some call has not ended, one of them can go on. The calls
that have started cannot go on for ever, and can all come to their end, where they hold no
lock. -/
theorem calls_never_deadlock {pool : LockedPool backends}
    (run : LockedRun backends schedule world pool) :
    (∀ thread ∈ pool.threads, ¬ thread.Finished →
      ∃ after, Pool.LockedStep World.exec (Pool.idle _ _) pool after) ∧
    (¬ ∃ pools : Nat → LockedPool backends, pools 0 = pool ∧
      ∀ n, Pool.LockedStep World.exec (Pool.idle _ _) (pools n) (pools (n + 1))) ∧
    ∃ final, Pool.LockedSteps World.exec (Pool.idle _ _) pool final ∧
      ∀ thread ∈ final.threads, thread.Finished ∧ thread.locks = [] := by
  refine ⟨fun thread member unfinished => ?_, ?_, ?_⟩
  · obtain ⟨index, found⟩ := List.mem_iff_getElem?.mp member
    exact Pool.progress World.exec (Invocation.ordered_program backends) run.exclusive found unfinished
  · rintro ⟨pools, -, steps⟩
    have finite := Pool.wellFounded_idle (Invocation.program backends)
      (lockedHandler World.exec)
    exact (wellFounded_iff_isEmpty_descending_chain.mp finite).false
      ⟨pools, fun n => (steps n).step⟩
  · obtain ⟨final, steps, ended⟩ := Pool.completes World.exec
      (Invocation.ordered_program backends) run.exclusive
    refine ⟨final, steps, fun thread member => ⟨ended thread member, ?_⟩⟩
    by_contra holding
    obtain ⟨lock, holds⟩ := List.exists_mem_of_ne_nil _ holding
    exact Pool.unfinished_of_held (Invocation.ordered_program backends) holds (ended thread member)

/-! ### Where a call holds its locks -/

section

variable {lock : Nat} {sink : NetworkFinalitySink} {request : SinkRequest} {draw : Option Str}
  {authority : NetworkFinalityAuthority} {checks : Dict Str}

omit [Hashlib] in
/-- No store gives back the lock of a sink or a network. -/
private theorem keeps_lock {own : Lock} (isOwn : own.rank ≠ 2) :
    ((sink.effectuate request draw authority checks).guardEach (Op.lock backends)).Uses
      fun op : LockOp system Lock => op ≠ .release own := by
  refine uses_guardEach _ (by simp) fun op lock owns => ⟨by simp, ?_⟩
  rintro ⟨⟩
  exact isOwn (Op.rank_lock owns)

/-- A call that has taken the lock of its network, up to where it gives it back. -/
structure Entered (lock : Nat) (sink : NetworkFinalitySink) (request : SinkRequest)
    (draw : Option Str) (past : List (Event (system.locked Lock)))
    (rest : Program SinkVerifyResponse) (authority : NetworkFinalityAuthority)
    (guards inner tail : List (Event (system.locked Lock))) : Prop where
  past : past = guards ++ ⟨.acquire (.sink lock), ()⟩ ::
    ⟨.acquire (.network sink.network), ()⟩ :: (inner ++ tail)
  guarded : ∃ checks, (sink.verify request).Returns (plainEvents guards) (authority, checks) ∧
    (sink.effectuate request draw authority checks).Path (plainEvents inner) rest
  keepsSink : ∀ event ∈ inner, event.op ≠ .release (.sink lock)
  keepsNetwork : ∀ event ∈ inner, event.op ≠ .release (.network sink.network)
  left : tail = [] ∨ ∃ outcome, rest = ended outcome

/-- A sink call is still at its guards, or has taken its locks. -/
theorem guarding_or_entered {past : List (Event (system.locked Lock))}
    {rest : LockedProgram SinkVerifyResponse}
    (path : (Invocation.program backends ⟨lock, .verifyAndEffectuate sink request draw⟩).Path past
      rest) :
    (∃ q, (sink.verify request).Path (plainEvents past) q ∧
      rest.unlocked = q >>= fun (authority, checks) =>
        sink.effectuate request draw authority checks) ∨
    ∃ authority guards inner tail,
      Entered lock sink request draw past rest.unlocked authority guards inner tail := by
  rcases path_bind path with
    ⟨guards, guarding, rfl, -⟩ | ⟨⟨authority, checks⟩, guards, second, verified, effectuating,
      rfl⟩
  · left
    have plain := guarding.unlocked
    rw [unlocked_guardEach] at plain
    refine ⟨_, plain, ?_⟩
    simp only [NetworkFinalitySink.lockedEffectuate, unlocked_bind, unlocked_withLock,
      unlocked_guardEach]
  have verified := Path.unlocked verified
  rw [unlocked_guardEach] at verified
  have before : (plainEvents second = [] ∧
      rest.unlocked = sink.effectuate request draw authority checks) →
      ∃ q, (sink.verify request).Path (plainEvents (guards ++ second)) q ∧
        rest.unlocked = q >>= fun (authority, checks) =>
          sink.effectuate request draw authority checks := by
    rintro ⟨nothing, same⟩
    exact ⟨.done (authority, checks), by simpa [nothing] using verified, same⟩
  have entered {inner : List (Event (system.locked Lock))}
      {q : LockedProgram SinkVerifyResponse} (tail : List (Event (system.locked Lock)))
      (working : ((sink.effectuate request draw authority checks).guardEach
        (Op.lock backends)).Path inner q)
      (split : second = ⟨.acquire (.sink lock), ()⟩ ::
        ⟨.acquire (.network sink.network), ()⟩ :: (inner ++ tail))
      (same : q.unlocked = rest.unlocked)
      (left : tail = [] ∨ ∃ outcome, rest.unlocked = ended outcome) :
      ∃ authority guards' inner tail,
        Entered lock sink request draw (guards ++ second) rest.unlocked authority guards' inner
          tail := by
    have plain := Path.unlocked working
    rw [unlocked_guardEach, same] at plain
    exact ⟨authority, guards, inner, tail, by rw [split], ⟨checks, verified, plain⟩,
      (keeps_lock (by simp [Lock.rank])).events working,
      (keeps_lock (by simp [Lock.rank])).events working, left⟩
  rcases path_withLock effectuating with
    ⟨rfl, rfl⟩ | ⟨_, q, locked, rfl, rfl⟩ | ⟨_, outcome, locked, rfl, rfl⟩
  · left
    exact before ⟨rfl, by rw [unlocked_withLock, unlocked_withLock, unlocked_guardEach]⟩
  · rcases path_withLock locked with
      ⟨rfl, rfl⟩ | ⟨inner, q, working, rfl, rfl⟩ | ⟨inner, outcome, working, rfl, rfl⟩
    · left
      exact before ⟨rfl, by rw [unlocked_releasing, unlocked_withLock, unlocked_guardEach]⟩
    · right
      exact entered [] working (by simp)
        (by rw [unlocked_releasing, unlocked_releasing]) (.inl rfl)
    · right
      exact entered _ working rfl (by rw [unlocked_releasing])
        (.inr ⟨outcome, by rw [unlocked_releasing, unlocked_ended]⟩)
  · rcases path_withLock locked with
      ⟨-, same⟩ | ⟨inner, q, -, -, same⟩ | ⟨inner, outcome', working, rfl, same⟩
    · cases outcome <;> cases same
    · cases outcome <;> cases q <;> cases same
    · right
      exact entered [⟨.release (.network sink.network), ()⟩, ⟨.release (.sink lock), ()⟩]
        working (by simp) (by rw [same]) (.inr ⟨outcome, unlocked_ended outcome⟩)

/-- A sink call whose next operation writes is inside its locks. -/
theorem inside_of_write {past : List (Event (system.locked Lock))}
    {rest : LockedProgram SinkVerifyResponse}
    (path : (Invocation.program backends ⟨lock, .verifyAndEffectuate sink request draw⟩).Path past
      rest) {op : Op} {next : op.Answer → Program SinkVerifyResponse}
    (calls : rest.unlocked = .call op next) (write : op.isWrite = true) :
    ∃ authority guards inner,
      Entered lock sink request draw past rest.unlocked authority guards inner [] := by
  rcases guarding_or_entered path with ⟨q, guarding, same⟩ | ⟨authority, guards, inner, tail, entered⟩
  · rw [same] at calls
    rcases q with ⟨authority, checks⟩ | reason | ⟨op', next'⟩
    · -- The part under the lock looks at the flag first.
      simp only [done_bind, NetworkFinalitySink.effectuate, ask, perform, call_bind] at calls
      obtain ⟨rfl, -⟩ := Procedure.call.inj calls
      cases write
    · cases calls
    · obtain ⟨rfl, -⟩ := Procedure.call.inj calls
      rw [(uses_call.mp (NetworkFinalitySink.verify_reads.remains guarding)).1] at write
      cases write
  · rcases entered.left with rfl | ⟨outcome, ended⟩
    · exact ⟨authority, guards, inner, entered⟩
    · rw [ended] at calls
      cases outcome <;> cases calls

/-- A call inside its locks holds both. -/
theorem Entered.locks {past guards inner : List (Event (system.locked Lock))}
    {rest : Program SinkVerifyResponse}
    (inside : Entered lock sink request draw past rest authority guards inner []) :
    Lock.sink lock ∈ heldFrom [] past ∧ Lock.network sink.network ∈ heldFrom [] past := by
  rw [inside.past, List.append_nil, heldFrom_append, heldFrom_cons, heldFrom_cons, hold, hold]
  exact ⟨mem_heldFrom (by simp) inside.keepsSink, mem_heldFrom (by simp) inside.keepsNetwork⟩

end

/-! ### Networks that nobody has locked -/

/-- A call that has consumed an authority, and has neither applied the effect nor undone the
consumption, holds the lock of its sink and that of its network. -/
theorem pending_locks (kept : ActivationsKept schedule) {pool : LockedPool backends}
    (run : LockedRun backends schedule world pool)
    {thread : Thread (Invocation.program backends)} (member : thread ∈ pool.threads)
    {authorityId : Str}
    (pending : Pending (thread.unlocked (Invocation.unlocked_program backends)) authorityId) :
    ∃ sink request draw, thread.call.call = .verifyAndEffectuate sink request draw ∧
      Lock.sink thread.call.sink ∈ thread.locks ∧ Lock.network sink.network ∈ thread.locks := by
  have unfinished : ¬ ∀ op next,
      (thread.unlocked (Invocation.unlocked_program backends)).rest ≠ .call op next := fun finished =>
    not_pending_of_finished kept run.plain (List.mem_map_of_mem member) finished authorityId pending
  obtain ⟨op, unfinished⟩ := not_forall.mp unfinished
  obtain ⟨next, unfinished⟩ := not_forall.mp unfinished
  have calls := not_not.mp unfinished
  have write := pending.writes_next calls
  obtain ⟨sink, request, draw, call⟩ := pending.holds.sink
  obtain ⟨⟨lock, call'⟩, past, rest, reached⟩ := thread
  obtain rfl : call' = _ := call
  obtain ⟨authority, guards, inner, inside⟩ := inside_of_write reached calls write
  exact ⟨sink, request, draw, rfl, inside.locks⟩

/-- Under the locks a call that has consumed an authority and is not done with it holds the
lock of its sink and that of its network. So while no network is locked, the used
authorities are exactly those under which an effect has been applied, each of them once. -/
theorem quiet_networks_accounted (environment : EnvironmentOnly schedule) (fresh : world.Fresh)
    {pool : LockedPool backends} (run : LockedRun backends schedule world pool) :
    (∀ thread ∈ pool.threads, ∀ authorityId,
      Pending (thread.unlocked (Invocation.unlocked_program backends)) authorityId →
      ∃ sink request draw, thread.call.call = .verifyAndEffectuate sink request draw ∧
        Lock.sink thread.call.sink ∈ thread.locks ∧ Lock.network sink.network ∈ thread.locks) ∧
    ((∀ thread ∈ pool.threads, ∀ network, Lock.network network ∉ thread.locks) →
      ∀ authorityId, pool.shared.activations.Used authorityId ↔
        ∃! application : Application, application.Occurs pool.plain ∧
          application.effect.authorityId = authorityId) := by
  refine ⟨fun thread member authorityId pending =>
    pending_locks environment.activationsKept run member pending, fun quiet authorityId => ?_⟩
  have accounted := used_iff environment fresh run.plain authorityId
  rw [Pool.unlocked_shared] at accounted
  rw [accounted]
  constructor
  · rintro (⟨application, occurs, named⟩ | ⟨plain, member, pending⟩)
    · refine ⟨application, ⟨occurs, named⟩, ?_⟩
      rintro other ⟨occurs', named'⟩
      exact applied_once environment run.plain occurs' occurs (named'.trans named.symm)
    · obtain ⟨thread, listed, rfl⟩ := List.mem_map.mp member
      obtain ⟨sink, request, draw, -, -, holds⟩ :=
        pending_locks environment.activationsKept run listed pending
      exact absurd holds (quiet thread listed sink.network)
  · rintro ⟨application, occurs, -⟩
    exact .inl ⟨application, occurs⟩

/-! ### Sinks that share a network -/

/-- A sink call works on this network. -/
def OnNetwork (network : Nat) : Call → Prop
  | .validateAndIssue .. => True
  | .verifyAndEffectuate sink _ _ => sink.network = network

/-- Since it has locked the network, the call has seen that the authority is unused, and has
performed nothing else. -/
def SeenUnused (network : Nat) (past : List (Event (system.locked Lock))) (authorityId : Str) :
    Prop :=
  ∃ guards inner, past = guards ++ ⟨.acquire (.network network), ()⟩ :: inner ∧
    (∀ event ∈ inner, event.op ≠ .release (.network network)) ∧
    plainEvents inner = ([⟨.isUsed authorityId, .ok false⟩] : List (Event system))

omit [Hashlib] in
/-- Such a call holds the lock of the network. -/
theorem SeenUnused.lock {network : Nat} {past : List (Event (system.locked Lock))}
    {authorityId : Str} (seen : SeenUnused network past authorityId) :
    Lock.network network ∈ heldFrom [] past := by
  obtain ⟨guards, inner, rfl, kept, -⟩ := seen
  rw [heldFrom_append, heldFrom_cons, hold]
  exact mem_heldFrom (by simp) kept

omit [Hashlib] in
/-- The last event of such a call is the look at the flag, or concerns a lock. -/
theorem SeenUnused.last {network : Nat} {past : List (Event (system.locked Lock))}
    {event : Event (system.locked Lock)} {authorityId : Str}
    (seen : SeenUnused network (past ++ [event]) authorityId) :
    (SeenUnused network past authorityId ∧ plainEvent event = none) ∨
      event = ⟨.plain (.isUsed authorityId), .ok false⟩ := by
  obtain ⟨guards, inner, split, kept, looked⟩ := seen
  rcases List.eq_nil_or_concat inner with rfl | ⟨before, last, rfl⟩
  · cases looked
  · rw [List.concat_eq_append] at split kept looked
    rw [← List.cons_append, ← List.append_assoc] at split
    obtain ⟨earlier, same⟩ := List.append_inj' split rfl
    obtain rfl := List.singleton_inj.mp same
    have kept' : ∀ event ∈ before, event.op ≠ .release (.network network) :=
      fun event member => kept event (List.mem_append_left _ member)
    rw [plainEvents_append] at looked
    rcases shape : plainEvent event with _ | plain
    · simp only [plainEvents_cons, shape, Option.toList_none, plainEvents_nil,
        List.append_nil] at looked
      exact .inl ⟨⟨guards, before, earlier, kept', looked⟩, rfl⟩
    · right
      simp only [plainEvents_cons, shape, Option.toList_some, plainEvents_nil,
        List.append_nil] at looked
      have only := (List.append_eq_singleton_iff.mp looked)
      obtain ⟨op, answer⟩ := event
      rcases only with ⟨-, same⟩ | ⟨-, impossible⟩
      · obtain rfl := List.singleton_inj.mp same
        cases op with
        | plain op => cases shape; rfl
        | acquire lock => cases shape
        | release lock => cases shape
      · cases impossible

/-- A call about to consume an authority is a sink call inside its locks. -/
private theorem inside_of_consume {thread : Thread (Invocation.program backends)}
    {authorityId : Str}
    {next : Except PyError Bool → LockedProgram thread.call.call.Result}
    (calls : thread.rest = .call (I := system.locked Lock) (.plain (.consume authorityId)) next) :
    ∃ sink request draw authority guards inner rest,
      thread.call.call = .verifyAndEffectuate sink request draw ∧
      Entered thread.call.sink sink request draw thread.past
        (.call (.consume authorityId) rest) authority guards inner [] := by
  obtain ⟨⟨lock, call⟩, past, rest, reached⟩ := thread
  have path : (Invocation.program backends ⟨lock, call⟩).Path past _ := reached
  rw [show rest = _ from calls] at path
  cases call with
  | validateAndIssue ped draws candidate =>
      have plain := Path.unlocked path
      rw [Invocation.unlocked_program] at plain
      have remaining := ProtectedEnforcementDomain.validateAndIssue_uses.remains plain
      cases (uses_call.mp remaining).1
  | verifyAndEffectuate sink request draw =>
      obtain ⟨authority, guards, inner, inside⟩ := inside_of_write path rfl rfl
      exact ⟨sink, request, draw, authority, guards, inner, _, rfl, inside⟩

/-- The points of the part under the lock, each with what it has performed. -/
private inductive LockPoint (sink : NetworkFinalitySink) (request : SinkRequest)
    (draw : Option Str) (authority : NetworkFinalityAuthority) (checks : Dict Str) :
    List (Event system) → Program SinkVerifyResponse → Prop where
  | looking {next} : LockPoint sink request draw authority checks []
      (.call (.isUsed authority.authorityId) next)
  | raised {past} (error : PyError) : LockPoint sink request draw authority checks past
      (.exit (.raised error))
  | concurrently : LockPoint sink request draw authority checks
      [⟨.isUsed authority.authorityId, .ok true⟩]
      (.exit (.denied (deny request.requestId .authorityAlreadyUsed
        "authority was consumed concurrently" checks (some authority.authorityId))))
  | consuming {next} : LockPoint sink request draw authority checks
      [⟨.isUsed authority.authorityId, .ok false⟩] (.call (.consume authority.authorityId) next)
  | refused {reason} : LockPoint sink request draw authority checks
      [⟨.isUsed authority.authorityId, .ok false⟩, ⟨.consume authority.authorityId, .ok false⟩]
      (.exit reason)
  | applying {past effect next} : LockPoint sink request draw authority checks past
      (.call (.apply sink.network effect draw) next)
  | undoing {past next} : LockPoint sink request draw authority checks past
      (.call (.unconsume authority.authorityId) next)
  | done {past} (response : SinkVerifyResponse) : LockPoint sink request draw authority checks past
      (.done response)

omit [Hashlib] in
private theorem lockPoint_of_path {sink : NetworkFinalitySink} {request : SinkRequest}
    {draw : Option Str} {authority : NetworkFinalityAuthority} {checks : Dict Str}
    {past : List (Event system)} {rest : Program SinkVerifyResponse}
    (path : (sink.effectuate request draw authority checks).Path past rest) :
    LockPoint sink request draw authority checks past rest := by
  simp only [NetworkFinalitySink.effectuate, ask, perform, call_bind, done_bind] at path
  rcases path_call_iff.mp path with ⟨rfl, rfl⟩ | ⟨used, tail, rfl, afterUsed⟩
  · exact .looking
  rcases used with error | _ | _
  · obtain ⟨rfl, rfl⟩ := path_exit_iff.mp afterUsed
    exact .raised error
  · rw [orRaise_ok, done_bind, refuseIf, exitIf_neg (by simp), done_bind] at afterUsed
    rcases path_call_iff.mp afterUsed with ⟨rfl, rfl⟩ | ⟨consumed, tail, rfl, afterConsumed⟩
    · exact .consuming
    rcases consumed with error | _ | _
    · obtain ⟨rfl, rfl⟩ := path_exit_iff.mp afterConsumed
      exact .raised error
    · rw [orRaise_ok, done_bind, refuseIf, exitIf_pos rfl, exit_bind] at afterConsumed
      obtain ⟨rfl, rfl⟩ := path_exit_iff.mp afterConsumed
      exact .refused
    · rw [orRaise_ok, done_bind, refuseIf, exitIf_neg (by simp), done_bind] at afterConsumed
      rcases path_call_iff.mp afterConsumed with ⟨rfl, rfl⟩ | ⟨applied, tail, rfl, afterApplied⟩
      · exact .applying
      rcases applied with error | effectId
      · rcases path_call_iff.mp afterApplied with ⟨rfl, rfl⟩ | ⟨undone, tail, rfl, afterUndone⟩
        · exact .undoing
        cases undone <;> obtain ⟨rfl, rfl⟩ := path_exit_iff.mp afterUndone <;> exact .raised _
      · obtain ⟨rfl, rfl⟩ := path_done_iff.mp afterApplied
        exact .done _
  · rw [orRaise_ok, done_bind, refuseIf, exitIf_pos rfl, exit_bind] at afterUsed
    obtain ⟨rfl, rfl⟩ := path_exit_iff.mp afterUsed
    exact .concurrently

section

variable {network : Nat}
  (oneNetwork : ∀ (pool : Pool Call.program World) call, schedule.starts pool call →
    OnNetwork network call)
  (environment : EnvironmentOnly schedule) {pool : LockedPool backends}
  (run : LockedRun backends schedule world pool)

include oneNetwork environment run

/-- What a call has seen of the flag under the lock of the only network is still so. -/
private theorem seen_unused :
    ∀ thread ∈ pool.threads, OnNetwork network thread.call.call ∧
      ∀ authorityId, SeenUnused network thread.past authorityId →
        ¬ pool.shared.activations.Used authorityId := by
  refine Pool.LockedSteps.facts_hold
    (fun (thread : Thread (Invocation.program backends)) (state : World) =>
      OnNetwork network thread.call.call ∧ ∀ authorityId,
        SeenUnused network thread.past authorityId → ¬ state.activations.Used authorityId)
    ?_ ?_ ?_ ?_ run
  · intro pool invocation allowed
    refine ⟨oneNetwork _ _ allowed, ?_⟩
    rintro authorityId ⟨guards, inner, split, -⟩
    simp at split
  · rintro thread op next calls state ⟨on, unused⟩
    refine ⟨on, fun authorityId seen => ?_⟩
    rw [Thread.advance_past] at seen
    rcases seen.last with ⟨before, lock⟩ | looked
    · have idles : (lockedHandler World.exec op state).2 = state := by
        cases op with
        | plain op => cases lock
        | acquire lock => rfl
        | release lock => rfl
      rw [idles]
      exact unused authorityId before
    · obtain ⟨rfl, answered⟩ := Event.mk.inj looked
      have read : state.activationStore.isUsed authorityId = .ok false := eq_of_heq answered
      intro used
      have flagged := (ActivationStore.isUsed_ok read).mpr used
      cases flagged
  · rintro thread actor op next state calls disjoint ⟨onActor, -⟩ ⟨on, unused⟩
    refine ⟨on, fun authorityId seen used => ?_⟩
    cases op with
    | acquire lock => exact unused authorityId seen used
    | release lock => exact unused authorityId seen used
    | plain op =>
        rcases (World.exec_activations op state).used_origin used with before | consumes
        · exact unused authorityId seen before
        · -- Only a call that has locked the network consumes.
          obtain ⟨rfl, -⟩ := Event.mk.inj consumes
          obtain ⟨sink, request, draw, authority, guards, inner, rest, call, inside⟩ :=
            inside_of_consume calls
          rw [call] at onActor
          refine disjoint _ seen.lock ?_
          rw [← show sink.network = network from onActor]
          exact inside.locks.2
  · rintro before after allowed thread member ⟨on, unused⟩
    refine ⟨on, fun authorityId seen used => unused authorityId seen ?_⟩
    rwa [(environment _ _ allowed).activations] at used

/-- A consumption never fails: the call has seen the flag clear, and nobody else can have
set it since. -/
private theorem consumed_ok : ∀ thread ∈ pool.threads, ∀ authorityId,
    ⟨.plain (.consume authorityId), .ok false⟩ ∉ thread.past := by
  induction run with
  | refl => simp [Pool.initial]
  | @tail middle final before step inductionHypothesis =>
      cases step with
      | start allowed =>
          intro thread member authorityId
          rcases List.mem_append.mp member with old | new
          · exact inductionHypothesis thread old authorityId
          · rw [List.mem_singleton.mp new]
            simp
      | @perform index actor op next found calls free =>
          intro thread member authorityId performed
          obtain ⟨place, atPlace⟩ := List.mem_iff_getElem?.mp member
          rcases Pool.getElem?_perform atPlace with ⟨-, rfl⟩ | ⟨-, other⟩
          · rw [Thread.advance_past, List.mem_append, List.mem_singleton] at performed
            have actorMember := List.mem_of_getElem? found
            rcases performed with earlier | now
            · exact inductionHypothesis actor actorMember authorityId earlier
            · obtain ⟨rfl, answered⟩ := Event.mk.inj now
              obtain ⟨sink, request, draw, authority, guards, inner, rest, call, inside⟩ :=
                inside_of_consume calls
              obtain ⟨checks, verified, effectuating⟩ := inside.guarded
              obtain ⟨rfl, looked⟩ : authorityId = authority.authorityId ∧ plainEvents inner =
                  ([⟨.isUsed authority.authorityId, .ok false⟩] : List (Event system)) := by
                generalize plainEvents inner = performed at effectuating
                cases lockPoint_of_path effectuating with
                | consuming => exact ⟨rfl, rfl⟩
              -- The record was there when the guards read it, and it stays.
              obtain ⟨now, evidence, activation, -, guarded, -⟩ :=
                NetworkFinalitySink.verify_returns.mp verified
              have read : (⟨.getActivation authority.authorityId, .ok (some activation)⟩ :
                  Event system) ∈ (actor.unlocked (Invocation.unlocked_program backends)).past := by
                change _ ∈ plainEvents actor.past
                rw [inside.past, plainEvents_append, guarded]
                exact List.mem_append_left _ (by simp [guardEvents])
              have issued := activation_read environment.activationsKept
                (LockedRun.plain before) (List.mem_map_of_mem actorMember) read
              obtain ⟨record, present, -⟩ := Option.map_eq_some_iff.mp issued
              have seen : SeenUnused sink.network actor.past authority.authorityId :=
                ⟨guards ++ [⟨.acquire (.sink actor.call.sink), ()⟩], inner, by simp [inside.past],
                  inside.keepsNetwork, looked⟩
              obtain ⟨on, unused⟩ := seen_unused oneNetwork environment before actor actorMember
              rw [call] at on
              rw [show sink.network = network from on] at seen
              have clear : record.used = false := by
                by_contra flagged
                exact unused _ seen ⟨record, present, by simpa using flagged⟩
              have succeeds := World.exec_consume_unused middle.shared present clear
              have fails : Except.ok false = (World.exec (.consume authority.authorityId)
                middle.shared).1 := eq_of_heq answered
              rw [succeeds] at fails
              cases fails
          · exact inductionHypothesis thread (List.mem_of_getElem? other) authorityId performed
      | change allowed => exact inductionHypothesis

/-- Whoever sees the flag set while it has locked the only network sees an authority under
which an effect has been applied. -/
private theorem taken_applied (fresh : world.Fresh) : ∀ thread ∈ pool.threads,
    ∀ guards inner tail authorityId,
      thread.past = guards ++ ⟨.acquire (.network network), ()⟩ ::
        (inner ++ ⟨.plain (.isUsed authorityId), .ok true⟩ :: tail) →
      (∀ event ∈ inner, event.op ≠ .release (.network network)) →
      Applied pool.plain authorityId := by
  induction run with
  | refl => simp [Pool.initial]
  | @tail middle final before step inductionHypothesis =>
      have further := (step.unlocked (Invocation.unlocked_program backends)).to_reflTransGen
      intro thread member guards inner tail authorityId split kept
      cases step with
      | start allowed =>
          rcases List.mem_append.mp member with old | new
          · exact (inductionHypothesis thread old _ _ _ _ split kept).keeps further
          · rw [List.mem_singleton.mp new] at split
            simp at split
      | @perform index actor op next found calls free =>
          obtain ⟨place, atPlace⟩ := List.mem_iff_getElem?.mp member
          have actorMember := List.mem_of_getElem? found
          rcases Pool.getElem?_perform atPlace with ⟨-, rfl⟩ | ⟨-, other⟩
          · rw [Thread.advance_past] at split
            rcases List.eq_nil_or_concat tail with rfl | ⟨tail, last, rfl⟩
            · rw [← List.cons_append, ← List.append_assoc] at split
              obtain ⟨earlier, same⟩ := List.append_inj' split rfl
              obtain ⟨rfl, answered⟩ := Event.mk.inj (List.singleton_inj.mp same)
              have read : middle.shared.activationStore.isUsed authorityId = .ok true :=
                eq_of_heq answered
              have used := (ActivationStore.isUsed_ok read).mp rfl
              rcases (used_iff environment fresh (LockedRun.plain before) authorityId).mp used with
                applied | ⟨plain, listed, pending⟩
              · exact applied.keeps further
              · -- The call that is on its way would hold the lock of the network as well.
                obtain ⟨thread, inPool, rfl⟩ := List.mem_map.mp listed
                obtain ⟨sink, request, draw, call, -, holds⟩ :=
                  pending_locks environment.activationsKept before inPool pending
                have on := (seen_unused oneNetwork environment before thread inPool).1
                rw [call] at on
                rw [show sink.network = network from on] at holds
                have holds' : Lock.network network ∈ actor.locks := by
                  rw [Thread.locks, earlier, heldFrom_append, heldFrom_cons, hold]
                  exact mem_heldFrom (by simp) kept
                obtain ⟨place', atPlace'⟩ := List.mem_iff_getElem?.mp inPool
                obtain rfl := (LockedRun.exclusive before) atPlace' found holds holds'
                obtain rfl := Option.some.inj (atPlace'.symm.trans found)
                obtain ⟨plainCalls, -⟩ := Thread.unlocked_advance_plain
                  (Invocation.unlocked_program backends) calls (.ok true)
                have write := pending.writes_next plainCalls
                cases write
            · rw [List.concat_eq_append, ← List.cons_append, ← List.append_assoc,
                ← List.cons_append, ← List.append_assoc] at split
              obtain ⟨earlier, -⟩ := List.append_inj' split rfl
              exact (inductionHypothesis actor actorMember guards inner tail authorityId
                (by simpa using earlier) kept).keeps further
          · exact (inductionHypothesis thread (List.mem_of_getElem? other) _ _ _ _ split
              kept).keeps further
      | change allowed =>
          exact (inductionHypothesis thread member _ _ _ _ split kept).keeps further

end

/-- Sinks that share one network, each with a lock of its own, never get in each other's way
between the second look at the flag and the consumption. No call is denied because its
consumption fails, and a call denied because the authority was consumed concurrently names
one under which the other call has already applied its effect. -/
theorem shared_network_denials {network : Nat}
    (oneNetwork : ∀ (pool : Pool Call.program World) call, schedule.starts pool call →
      OnNetwork network call)
    (environment : EnvironmentOnly schedule) (fresh : world.Fresh) {pool : LockedPool backends}
    (run : LockedRun backends schedule world pool) {sink : NetworkFinalitySink}
    {request : SinkRequest} {draw : Option Str} {response : SinkVerifyResponse} :
    ∀ thread ∈ pool.threads, thread.call.call = .verifyAndEffectuate sink request draw →
      thread.rest.unlocked = .exit (.denied response) →
      response.message ≠ some "authority could not be consumed" ∧
      (response.message = some "authority was consumed concurrently" →
        ∃ authority, request.authority = some authority ∧
          response.authorityId = some authority.authorityId ∧
          Applied pool.plain authority.authorityId) := by
  rintro ⟨⟨lock, call⟩, past, rest, reached⟩ member rfl ended
  change rest.unlocked = .exit (.denied response) at ended
  rcases guarding_or_entered reached with
    ⟨q, guarding, same⟩ | ⟨authority, guards, inner, tail, inside⟩
  · -- The guards deny, with a message of their own.
    rw [ended] at same
    rcases q with ⟨authority, checks⟩ | reason | ⟨op, next⟩
    · cases same
    · obtain rfl := Procedure.exit.inj same
      have own := NetworkFinalitySink.verify_leaves.reason guarding
      have other (message : String) (locked : message ∈ lockMessages) :
          response.message ≠ some (message : Str) :=
        own.message_ne (guardMessages_disjoint message locked)
      exact ⟨other _ (by decide), fun same => absurd same (other _ (by decide))⟩
    · cases same
  · obtain ⟨checks, verified, effectuating⟩ := inside.guarded
    obtain ⟨now, evidence, activation, admitted, -, -⟩ :=
      NetworkFinalitySink.verify_returns.mp verified
    rw [ended] at effectuating
    generalize looked : plainEvents inner = performed at effectuating
    cases lockPoint_of_path effectuating with
    | concurrently =>
        refine ⟨fun same => absurd (Str.ofString_inj.mp (Option.some.inj same)) (by decide),
          fun _ => ⟨authority, admitted.presented, rfl, ?_⟩⟩
        have performed : ⟨.plain (.isUsed authority.authorityId), .ok true⟩ ∈ inner :=
          mem_plainEvents.mp (by rw [looked]; exact List.mem_singleton_self _)
        obtain ⟨inner, further, rfl⟩ := List.append_of_mem performed
        have on := (seen_unused oneNetwork environment run _ member).1
        refine taken_applied oneNetwork environment run fresh _ member
          (guards ++ [⟨.acquire (.sink lock), ()⟩]) inner (further ++ tail) _ ?_ ?_
        · rw [← show sink.network = network from on]
          simpa using inside.past
        · rw [← show sink.network = network from on]
          exact fun event listed => inside.keepsNetwork event (List.mem_append_left _ listed)
    | refused =>
        have failed : ⟨.plain (.consume authority.authorityId), .ok false⟩ ∈ inner :=
          (mem_plainEvents (I := system)).mp
            (by rw [looked]; exact List.mem_cons_of_mem _ (List.mem_singleton_self _))
        refine absurd ?_ (consumed_ok oneNetwork environment run _ member authority.authorityId)
        change _ ∈ past
        rw [inside.past]
        simp [failed]

/-! ### Two sinks after one authority -/

namespace Reference

omit [Hashlib]

/-- The call that issues the authority, and two sinks of one network that are asked to
effectuate it. -/
def invocations : List Invocation :=
  [⟨0, .validateAndIssue start.ped draws candidate⟩,
    ⟨0, .verifyAndEffectuate start.sink request (some "0000000001")⟩,
    ⟨1, .verifyAndEffectuate start.sink request (some "0000000002")⟩]

/-- The three calls have started. -/
def contenders : @LockedPool .checksum ⟨true, true⟩ where
  shared := start.world
  threads := invocations.map (Thread.start (@Invocation.program .checksum ⟨true, true⟩))

/-- The authority is issued before the sinks begin, and they take turns. -/
def contention : @LockedPool .checksum ⟨true, true⟩ :=
  Pool.play (@World.exec .checksum) (List.replicate 31 0 ++ (List.replicate 36 [1, 2]).flatten)
    contenders

/-- Only calls on the network may start. -/
def onNetwork : Schedule (@Call.program .checksum) World :=
  ⟨fun _ call => OnNetwork 0 call, fun _ _ => False⟩

theorem onNetwork_environment : @EnvironmentOnly .checksum onNetwork := fun _ _ => False.elim

theorem contenders_run : @LockedRun .checksum ⟨true, true⟩ onNetwork start.world contenders := by
  refine @LockedRun.started .checksum _ _ _ invocations fun pool => ?_
  simp only [invocations, List.mem_cons, List.not_mem_nil, or_false]
  rintro invocation (rfl | rfl | rfl)
  · trivial
  · rfl
  · rfl

theorem contention_run : @LockedRun .checksum ⟨true, true⟩ onNetwork start.world contention :=
  contenders_run.trans (Pool.play_steps _ _)

/-- The first sink is about to apply its effect. -/
def contended : @LockedPool .checksum ⟨true, true⟩ :=
  Pool.play (@World.exec .checksum) (List.replicate 31 0 ++ (List.replicate 26 [1, 2]).flatten)
    contenders

theorem contended_run : @LockedRun .checksum ⟨true, true⟩ onNetwork start.world contended :=
  contenders_run.trans (Pool.play_steps _ _)

/-- The locks a thread holds, and the lock it is about to take. -/
def standing (thread : Thread (@Invocation.program .checksum ⟨true, true⟩)) :
    List Lock × Option Lock :=
  (thread.locks, match thread.rest with
    | .call (.acquire lock) _ => some lock
    | _ => none)

/-- The second sink waits for the network, whose lock the first one holds. -/
theorem contended_standing : contended.threads.map standing =
    [([], none), ([.network 0, .sink 0], none), ([.sink 1], some (.network 0))] := by
  decide +kernel

/-- The locks a thread holds, and the message of a sink call that has been denied. -/
def report (thread : Thread (@Invocation.program .checksum ⟨true, true⟩)) :
    List Lock × Option Str :=
  (thread.locks, match thread.call, thread.rest with
    | ⟨_, .verifyAndEffectuate ..⟩, .exit (.denied response) => response.message
    | _, _ => none)

/-- The sink that comes second finds the authority used under the lock. -/
theorem contention_reports : contention.threads.map report =
    [([], none), ([], none), ([], some ("authority was consumed concurrently" : Str))] := by
  decide +kernel

end Reference

omit [Hashlib] in
/-- One sink waits for the lock another holds, and still they can go on and come to their
end. -/
theorem calls_never_deadlock_contenders :
    Reference.contended.threads.map Reference.standing =
      [([], none), ([.network 0, .sink 0], none), ([.sink 1], some (.network 0))] ∧
    (∃ after, Pool.LockedStep (@World.exec .checksum) (Pool.idle _ _) Reference.contended after) ∧
    (¬ ∃ pools : Nat → @LockedPool .checksum ⟨true, true⟩, pools 0 = Reference.contended ∧
      ∀ n, Pool.LockedStep (@World.exec .checksum) (Pool.idle _ _) (pools n) (pools (n + 1))) ∧
    ∃ final, Pool.LockedSteps (@World.exec .checksum) (Pool.idle _ _) Reference.contended final ∧
      ∀ thread ∈ final.threads, thread.Finished ∧ thread.locks = [] := by
  have waits : ([.sink 1], some (.network 0)) ∈
      Reference.contended.threads.map Reference.standing := by
    rw [Reference.contended_standing]
    simp
  obtain ⟨waiting, member, waits⟩ := List.mem_map.mp waits
  have unfinished : ¬ waiting.Finished := by
    intro finished
    have next := congrArg Prod.snd waits
    unfold Reference.standing at next
    split at next
    · exact finished _ _ ‹_›
    · cases next
  obtain ⟨goesOn, ends⟩ :=
    @calls_never_deadlock .checksum _ _ _ _ Reference.contended_run
  exact ⟨Reference.contended_standing, goesOn waiting member unfinished, ends⟩

omit [Hashlib] in
/-- Once they have ended, the authority they contended for has one effect if it is used. -/
theorem quiet_networks_accounted_contention :
    Reference.contention.shared.activations.Used Reference.draws.authorityId ↔
      ∃! application : Application,
        @Application.Occurs .checksum application (@LockedPool.plain .checksum _ Reference.contention) ∧
          application.effect.authorityId = Reference.draws.authorityId := by
  refine (@quiet_networks_accounted .checksum _ _ _ Reference.onNetwork_environment
    (buildReferenceSystem_fresh _ _) _ Reference.contention_run).2 ?_ _
  intro thread member network holds
  have reported : Reference.report thread ∈ Reference.contention.threads.map Reference.report :=
    List.mem_map_of_mem member
  rw [Reference.contention_reports] at reported
  have released : thread.locks = [] := by
    simp only [List.mem_cons, List.not_mem_nil, or_false] at reported
    rcases reported with same | same | same <;> exact congrArg Prod.fst same
  rw [released] at holds
  cases holds

omit [Hashlib] in
/-- The sink that comes second is denied under an authority that has been applied. -/
theorem shared_network_denials_contention : ∃ thread ∈ Reference.contention.threads,
    ∃ sink request draw response authority,
      thread.call.call = .verifyAndEffectuate sink request draw ∧
      thread.rest.unlocked = .exit (.denied response) ∧
      response.message = some "authority was consumed concurrently" ∧
      request.authority = some authority ∧
      @Applied .checksum (@LockedPool.plain .checksum _ Reference.contention) authority.authorityId := by
  have reported : ([], some ("authority was consumed concurrently" : Str)) ∈
      Reference.contention.threads.map Reference.report := by
    rw [Reference.contention_reports]
    simp
  obtain ⟨thread, member, reported⟩ := List.mem_map.mp reported
  have message := congrArg Prod.snd reported
  obtain ⟨⟨lock, call⟩, past, rest, reached⟩ := thread
  cases call with
  | validateAndIssue ped draws candidate => cases message
  | verifyAndEffectuate sink request draw =>
      rcases rest with response | ⟨response | error⟩ | ⟨op, next⟩
      · cases message
      · obtain ⟨authority, presented, -, applied⟩ :=
          (@shared_network_denials .checksum _ _ _ 0 (fun _ _ => id)
            Reference.onNetwork_environment (buildReferenceSystem_fresh _ _) _
            Reference.contention_run sink request draw response _ member rfl rfl).2 message
        exact ⟨_, member, sink, request, draw, response, authority, rfl, rfl, message, presented,
          applied⟩
      · cases message
      · cases message

end NetworkFinality
