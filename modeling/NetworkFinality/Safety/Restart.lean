import NetworkFinality.Model.Restart
import NetworkFinality.Safety.AtMostOnce
import NetworkFinality.Safety.EffectLog

/-!
# Replay across restarts

Activation records and their flags are kept across restarts, and the nonce registry is
not. So an authority is consumed at most once over all processes on a directory, but a
nonce is reserved at most once only within a process. What stops a second ALLOW after a
restart is then the policy alone: it must refuse every candidate whose nonce stands in an
activation record that the process finds in its directory.
-/

namespace NetworkFinality

open Python Semantics Procedure

/-- The nonce of the candidate a call is given. -/
def Call.nonce (call : Call) : Str := call.candidate.freshness.nonce.1

/-- The result is an ALLOW decision of the enforcement domain. -/
def Call.Allows : (call : Call) → call.Result → Prop
  | .validateAndIssue .., result => result.decision.decision = .allow
  | .verifyAndEffectuate .., _ => False

section

variable [Hashlib]

/-- The call has returned an ALLOW decision on a candidate with the nonce. -/
structure Allowed (thread : Thread Call.program) (nonce : Str) : Prop where
  nonce : thread.call.nonce = nonce
  returned : ∃ result, thread.rest = .done result ∧ thread.call.Allows result

/-- The call has applied an effect for a candidate with the nonce. -/
structure Effected (thread : Thread Call.program) (nonce : Str) : Prop where
  nonce : thread.call.nonce = nonce
  applied : ∃ network effect draw effectId,
    ⟨.apply network effect draw, .ok effectId⟩ ∈ thread.past

/-- The call is given a candidate that the policy accepts at what the call reads. -/
def Call.Accepts : Call → List (Event system) → Prop
  | .validateAndIssue ped _ candidate, past => ped.Accepts candidate past
  | .verifyAndEffectuate .., _ => False

/-- An activation record of the world holds the nonce. -/
def World.Activated (world : World) (nonce : Str) : Prop :=
  ∃ authorityId record, world.activations authorityId = some record ∧ record.nonce = nonce

/-- No process is given a candidate that the policy accepts although its nonce stands in an
activation record of the directory as the process has found it. -/
def NoneAcceptedAgain (lifetimes : List (Lifetime Call.program World)) : Prop :=
  ∀ earlier next later found, lifetimes = earlier ++ next :: later →
    lastState earlier = some found → ∀ thread ∈ next.pool.threads,
      thread.call.Accepts thread.past → ¬ found.Activated thread.call.nonce

/-- Each nonce is allowed by at most one call and has at most one effect, over all
processes. -/
structure ReplayProtected (lifetimes : List (Lifetime Call.program World)) : Prop where
  allowed : ∀ (i j : Nat) first second nonce, (calls lifetimes)[i]? = some first →
    (calls lifetimes)[j]? = some second → Allowed first nonce → Allowed second nonce → i = j
  effectuated : ∀ (i j : Nat) first second nonce, (calls lifetimes)[i]? = some first →
    (calls lifetimes)[j]? = some second → Effected first nonce → Effected second nonce →
    i = j

/-! ### What a call has done -/

variable {thread : Thread Call.program}

/-- A call that has put an activation record has allowed its nonce. -/
theorem allowed_of_put {activation : ActivationRecord}
    (put : ⟨.putActivation activation, .ok ()⟩ ∈ thread.past) :
    Allowed thread thread.call.nonce := by
  obtain ⟨_, _, _, _, _, _, _, _, _, rfl, issued⟩ := thread_of_put put
  exact ⟨rfl, _, rfl, issued.decided.outcome⟩

/-- A call puts one activation record. -/
theorem put_once {activation activation' : ActivationRecord}
    (put : ⟨.putActivation activation, .ok ()⟩ ∈ thread.past)
    (put' : ⟨.putActivation activation', .ok ()⟩ ∈ thread.past) :
    activation.authorityId = activation'.authorityId := by
  obtain ⟨ped, draws, candidate, now, decision, evidence, authority, call, facts, -⟩ :=
    issued_of_thread put
  obtain ⟨ped', draws', candidate', now', decision', evidence', authority', call', facts', -⟩ :=
    issued_of_thread put'
  obtain ⟨-, rfl, -⟩ := Call.validateAndIssue.inj (call.symm.trans call')
  rw [facts.prepared.activationId, facts'.prepared.activationId, facts.prepared.authorityId,
    facts'.prepared.authorityId]

/-- A call that has allowed a nonce has put an activation record of it. -/
theorem Allowed.put {nonce : Str} (allowed : Allowed thread nonce) :
    ∃ activation : ActivationRecord, ⟨.putActivation activation, .ok ()⟩ ∈ thread.past ∧
      activation.nonce = nonce := by
  obtain ⟨call, past, rest, reached⟩ := thread
  obtain ⟨rfl, result, ended, allows⟩ := allowed
  cases call with
  | validateAndIssue ped draws candidate =>
      obtain ⟨decided, rfl, permitted⟩ : ∃ decided : PEDResult, rest = .done decided ∧
          decided.decision.decision = .allow := ⟨result, ended, allows⟩
      rcases ProtectedEnforcementDomain.validateAndIssue_returns reached with
        ⟨-, activation, put⟩ | ⟨denied, -⟩
      · obtain ⟨now, decision, evidence, authority, issued, -⟩ :=
          ProtectedEnforcementDomain.issued_of_put reached put
        exact ⟨activation, put, by rw [issued.prepared.activationNonce]; rfl⟩
      · rw [denied] at permitted
        cases permitted
  | verifyAndEffectuate sink request draw => cases allows

/-- A call that has allowed a nonce has reserved it. -/
theorem Allowed.reserves {nonce : Str} (allowed : Allowed thread nonce) :
    ⟨.reserve nonce, true⟩ ∈ thread.past := by
  obtain ⟨activation, put, rfl⟩ := allowed.put
  obtain ⟨ped, draws, candidate, now, decision, evidence, authority, call, facts, -⟩ :=
    issued_of_thread put
  rw [facts.prepared.activationNonce]
  exact facts.reserved

/-- A call that has allowed a nonce has had its candidate accepted. -/
theorem Allowed.accepts {nonce : Str} (allowed : Allowed thread nonce) :
    thread.call.Accepts thread.past := by
  obtain ⟨call, past, rest, reached⟩ := thread
  obtain ⟨-, result, ended, allows⟩ := allowed
  cases call with
  | validateAndIssue ped draws candidate =>
      obtain ⟨decided, rfl, permitted⟩ : ∃ decided : PEDResult, rest = .done decided ∧
          decided.decision.decision = .allow := ⟨result, ended, allows⟩
      exact ProtectedEnforcementDomain.accepts_of_allow reached permitted
  | verifyAndEffectuate sink request draw => cases allows

/-- A call that has applied an effect holds an authority that some call has issued for its
nonce. -/
theorem Effected.issued {nonce : Str} (effectuated : Effected thread nonce) :
    ∃ sink request authority, Cleared sink request authority thread.past ∧
      request.candidate.freshness.nonce.1 = nonce ∧ Holds thread authority.authorityId := by
  obtain ⟨named, network, effect, draw, effectId, applied⟩ := effectuated
  obtain ⟨sink, request, authority, call, -, -, cleared, written, -⟩ := applied_of_thread applied
  refine ⟨sink, request, authority, cleared, ?_, ?_, fun undone => ?_⟩
  · rw [← named, Call.nonce, call]
    rfl
  · have consumed : ⟨.consume authority.authorityId, .ok true⟩ ∈ writes thread.past := by
      simp [written]
    exact (mem_writes.mp consumed).1
  · have undone := mem_writes.mpr ⟨undone, rfl⟩
    simp [written] at undone

/-! ### Over all processes -/

variable {schedule : Schedule Call.program World} {lifetimes : List (Lifetime Call.program World)}

omit [Hashlib] in
theorem Boots.fresh {world : World} (boots : Boots none world) : world.Fresh := by
  cases boots with
  | first arguments clock empty => rcases empty with rfl | rfl <;> exact ⟨fun _ => rfl, fun _ _ => rfl⟩

omit [Hashlib] in
/-- A process finds the activation records that the one before has left. -/
theorem Boots.activations {last world : World} (boots : Boots (some last) world) :
    world.activations = last.activations := by
  cases boots with
  | again arguments clock evidenceFile activationFile =>
      rw [World.activations, World.activations, activationFile]
      rfl

theorem restarting_kept (environment : EnvironmentOnly schedule) :
    ActivationsKept (schedule.restarting Boots) := by
  rintro pool state (⟨threads, changed⟩ | boots)
  · exact (environment _ _ changed).activations
  · exact boots.activations

theorem NoneAcceptedAgain.earlier {next : Lifetime Call.program World}
    (condition : NoneAcceptedAgain (lifetimes ++ [next])) : NoneAcceptedAgain lifetimes := by
  intro earlier middle later found split
  exact condition earlier middle (later ++ [next]) found (by simp [split])

/-- What the last process leaves holds a record of every nonce that was allowed. -/
theorem allowed_recorded (environment : EnvironmentOnly schedule)
    (run : Lifetimes World.exec schedule Boots lifetimes) {last : World}
    (left : lastState lifetimes = some last) {thread : Thread Call.program}
    (member : thread ∈ calls lifetimes) {nonce : Str} (allowed : Allowed thread nonce) :
    last.Activated nonce := by
  obtain ⟨initial, -, steps⟩ := run.pool left
  obtain ⟨activation, put, named⟩ := allowed.put
  have issued := activation_kept (restarting_kept environment) steps member put
  obtain ⟨record, stored, same⟩ := Option.map_eq_some_iff.mp issued
  refine ⟨_, record, stored, ?_⟩
  rw [← named]
  exact congrArg (·.nonce) same

/-- Two calls that have allowed one nonce are one call. -/
theorem allowed_once (environment : EnvironmentOnly schedule)
    (run : Lifetimes World.exec schedule Boots lifetimes) (condition : NoneAcceptedAgain lifetimes)
    {i j : Nat} {first second : Thread Call.program} {nonce : Str}
    (atFirst : (calls lifetimes)[i]? = some first) (atSecond : (calls lifetimes)[j]? = some second)
    (allowed : Allowed first nonce) (allowed' : Allowed second nonce) : i = j := by
  induction run generalizing i j first second with
  | nil => simp at atFirst
  | @boot lifetimes next initial earlier _ timeline inductionHypothesis =>
      rw [calls_append] at atFirst atSecond
      -- The nonce of an earlier call stands in the directory, so the policy refuses it here.
      have refused : ∀ {old new : Thread Call.program}, old ∈ calls lifetimes →
          new ∈ next.pool.threads → Allowed old nonce → ¬ Allowed new nonce := by
        intro old new before now allowed allowed'
        cases left : lastState lifetimes with
        | none =>
            have nothing : lifetimes = [] := by simpa [lastState] using left
            simp [nothing] at before
        | some last =>
            refine condition lifetimes next [] last rfl left new now allowed'.accepts ?_
            rw [allowed'.nonce]
            exact allowed_recorded environment earlier left before allowed
      rcases getElem?_append_cases atFirst with old | ⟨beyond, new⟩
      · rcases getElem?_append_cases atSecond with old' | ⟨-, new'⟩
        · exact inductionHypothesis condition.earlier old old' allowed allowed'
        · exact absurd allowed'
            (refused (List.mem_of_getElem? old) (List.mem_of_getElem? new') allowed)
      · rcases getElem?_append_cases atSecond with old' | ⟨beyond', new'⟩
        · exact absurd allowed
            (refused (List.mem_of_getElem? old') (List.mem_of_getElem? new) allowed')
        · -- Within one process the nonce registry decides.
          have same := (nonces_held environment timeline.steps).exclusive new new'
            ⟨_, allowed.reserves, rfl⟩ ⟨_, allowed'.reserves, rfl⟩
          omega

/-- Two calls that have applied effects for one nonce are one call. -/
theorem effectuated_once (environment : EnvironmentOnly schedule)
    (run : Lifetimes World.exec schedule Boots lifetimes) (condition : NoneAcceptedAgain lifetimes)
    {i j : Nat} {first second : Thread Call.program} {nonce : Str}
    (atFirst : (calls lifetimes)[i]? = some first) (atSecond : (calls lifetimes)[j]? = some second)
    (effectuated : Effected first nonce) (effectuated' : Effected second nonce) : i = j := by
  cases last : lastState lifetimes with
  | none =>
      have nothing : lifetimes = [] := by simpa [lastState] using last
      simp [nothing] at atFirst
  | some state =>
      -- All processes together are one pool, in which no flag is lost.
      obtain ⟨initial, boots, steps⟩ := run.pool last
      have kept := restarting_kept environment
      have issuer : ∀ {index : Nat} {thread : Thread Call.program},
          (calls lifetimes)[index]? = some thread → Effected thread nonce →
          ∃ (place : Nat) (issuer : Thread Call.program) (activation : ActivationRecord),
            (calls lifetimes)[place]? = some issuer ∧
              ⟨.putActivation activation, .ok ()⟩ ∈ issuer.past ∧ Allowed issuer nonce ∧
              Holds thread activation.authorityId := by
        intro index thread found effectuated
        obtain ⟨sink, request, authority, cleared, named, holds⟩ := effectuated.issued
        obtain ⟨issuer, member, activation, put, vouched⟩ := cleared_vouched kept boots.fresh steps
          (List.mem_of_getElem? found) cleared
        obtain ⟨place, atPlace⟩ := List.mem_iff_getElem?.mp member
        obtain ⟨ped, draws, candidate, now, decision, evidence, issued, call, facts, -⟩ :=
          issued_of_thread put
        refine ⟨place, issuer, activation, atPlace, put, ?_, ?_⟩
        · have allowed := allowed_of_put put
          rwa [Call.nonce, call, Call.candidate, ← facts.prepared.activationNonce, vouched.nonce,
            named] at allowed
        · rwa [vouched.authorityId]
      obtain ⟨place, issuer₁, activation, atPlace, put, allowed, holds⟩ := issuer atFirst effectuated
      obtain ⟨place', issuer₂, activation', atPlace', put', allowed', holds'⟩ :=
        issuer atSecond effectuated'
      obtain rfl := allowed_once environment run condition atPlace atPlace' allowed allowed'
      obtain rfl := Option.some.inj (atPlace.symm.trans atPlace')
      rw [← put_once put put'] at holds'
      exact (authorities_held kept steps).exclusive atFirst atSecond holds holds'

/-- Over any processes on one directory, each nonce is allowed once and has at most one
effect, when no process accepts a candidate whose nonce it finds in an activation record. -/
theorem replay_protected (environment : EnvironmentOnly schedule)
    (run : Lifetimes World.exec schedule Boots lifetimes) (condition : NoneAcceptedAgain lifetimes) :
    ReplayProtected lifetimes where
  allowed _ _ _ _ _ := allowed_once environment run condition
  effectuated _ _ _ _ _ := effectuated_once environment run condition

end
namespace Reference

/-- The reference candidate is issued an authority from a world. -/
def issuedFrom (draws : IssueDraws) (world : World) : Except Exit PEDResult × World :=
  (@ProtectedEnforcementDomain.validateAndIssue .checksum start.ped draws candidate).run
    (@World.exec .checksum) world

def requestFor (authority : NetworkFinalityAuthority) : SinkRequest where
  requestId := "request-1"
  candidate := candidate
  authority := some authority
  proposedEffect := effect

/-- The effect is applied after that. -/
def effectedFrom (draws : IssueDraws) (world : World) (authority : NetworkFinalityAuthority) :
    World :=
  @NetworkFinalitySink.applied .checksum start.sink (requestFor authority) authority "0000000001"
    (issuedFrom draws world).2

def turnsFrom (draws : IssueDraws) (world : World) (authority : NetworkFinalityAuthority) :
    List (Turn Call World) :=
  [⟨Call.validateAndIssue start.ped draws candidate, world⟩,
    ⟨Call.verifyAndEffectuate start.sink (requestFor authority) (some "0000000001"),
      (issuedFrom draws world).2⟩]

section

variable {draws : IssueDraws} {world : World} {authority : NetworkFinalityAuthority}

/-- Whatever authority the candidate is issued, its request is allowed. -/
theorem allowedFrom (returned : authorityOf (issuedFrom draws world).1 = some authority) :
    ∃ response, (@NetworkFinalitySink.verifyAndEffectuate .checksum start.sink
        (requestFor authority) (some "0000000001")).run (@World.exec .checksum)
          (issuedFrom draws world).2 = (.ok response, effectedFrom draws world authority) := by
  have given : (requestFor authority).candidate = candidate := by simp only [requestFor]
  have presented : (requestFor authority).authority = some authority := by simp only [requestFor]
  have conforms : @Conforms .checksum candidate (requestFor authority).proposedEffect := by
    simp only [requestFor, effect_conforms]
  obtain ⟨response, allowed, -⟩ := allowed_where_returned (by rw [issuedFrom]) returned
    (start_named candidate_made rfl rfl) given presented conforms "0000000001"
  exact ⟨response, allowed⟩

theorem historyFrom (returned : authorityOf (issuedFrom draws world).1 = some authority) :
    History (@Call.program .checksum) (@World.exec .checksum) World.Environment world
      (turnsFrom draws world authority) (effectedFrom draws world authority) := by
  obtain ⟨response, allowed⟩ := allowedFrom returned
  have issuing : History (@Call.program .checksum) (@World.exec .checksum) World.Environment
      world [⟨.validateAndIssue start.ped draws candidate, world⟩] (issuedFrom draws world).2 := by
    apply @history_validateAndIssue .checksum _ _ _ _ [] .start
    rw [issuedFrom]
  have effecting := @history_verifyAndEffectuate .checksum _ _ _ _ _ issuing start.sink
    (requestFor authority) (some "0000000001") (congrArg Prod.snd allowed)
  rw [turnsFrom]
  rwa [List.singleton_append] at effecting

end

/-- The two calls as a process on the world. -/
theorem lifetimeFrom {draws : IssueDraws} {world : World} {authority : NetworkFinalityAuthority}
    (returned : authorityOf (issuedFrom draws world).1 = some authority) :
    ∃ log, Timeline (@World.exec .checksum) (@unrestricted .checksum) world log
      (Turn.pool (@Call.program .checksum) (@World.exec .checksum)
        (turnsFrom draws world authority) (effectedFrom draws world authority)) :=
  Timeline.of_steps ((historyFrom returned).pool (fun _ _ _ _ => trivial) fun _ _ => id)

/-- The second of the two calls has applied an effect for the nonce. -/
theorem effectedFrom_second {draws : IssueDraws} {world : World}
    {authority : NetworkFinalityAuthority}
    (returned : authorityOf (issuedFrom draws world).1 = some authority) :
    @Effected .checksum (Turn.thread (@Call.program .checksum) (@World.exec .checksum)
      ⟨Call.verifyAndEffectuate start.sink (requestFor authority) (some "0000000001"),
        (issuedFrom draws world).2⟩) candidate.freshness.nonce.1 := by
  obtain ⟨response, allowed⟩ := allowedFrom returned
  obtain ⟨effect, draw, id, -, applied⟩ :=
    (@allowance_iff .checksum _ _ _).mp (@allowance_turn .checksum _ _ _ _ _ _ allowed)
  refine @Effected.mk .checksum _ _ ?_ ⟨_, effect, draw, id, applied⟩
  simp only [Turn.thread_call, Call.nonce, Call.candidate, requestFor]

theorem onDisk_effectedFrom {draws : IssueDraws} {world : World}
    {authority : NetworkFinalityAuthority}
    (returned : authorityOf (issuedFrom draws world).1 = some authority) (onDisk : world.OnDisk) :
    (effectedFrom draws world authority).OnDisk := by
  obtain ⟨response, allowed⟩ := allowedFrom returned
  have issuing : (issuedFrom draws world).2.OnDisk := by
    rw [issuedFrom]
    exact @onDisk_run .checksum _ _ _ onDisk
  have effecting := @onDisk_run .checksum _
    (@NetworkFinalitySink.verifyAndEffectuate .checksum start.sink (requestFor authority)
      (some "0000000001")) _ issuing
  rwa [allowed] at effecting

/-! ### A candidate that is effectuated again after a restart -/

def diskAuthority : NetworkFinalityAuthority :=
  (authorityOf (issuedFrom draws diskStart.world).1).get (by decide +kernel)

theorem diskAuthority_returned :
    authorityOf (issuedFrom draws diskStart.world).1 = some diskAuthority := by
  rw [diskAuthority, Option.some_get]

/-- What the first process leaves. -/
def diskFinal : World := effectedFrom draws diskStart.world diskAuthority

/-- The next process on the directory. -/
def rebooted : ReferenceSystem := buildReferenceSystem arguments diskFinal.directory clock

theorem rebooted_boots : Boots (some diskFinal) rebooted.world := by
  have onDisk : diskFinal.OnDisk :=
    onDisk_effectedFrom diskAuthority_returned (onDisk_built arguments clock)
  rw [rebooted]
  exact Boots.directory onDisk arguments clock

/-- The next process is presented the used authority. -/
def replayTurns : List (Turn Call World) :=
  [⟨Call.verifyAndEffectuate start.sink (requestFor diskAuthority) (some "0000000002"),
    rebooted.world⟩]

def replayedWorld : World :=
  ((@NetworkFinalitySink.verifyAndEffectuate .checksum start.sink (requestFor diskAuthority)
    (some "0000000002")).run (@World.exec .checksum) rebooted.world).2

theorem replay_history : History (@Call.program .checksum) (@World.exec .checksum)
    World.Environment rebooted.world replayTurns replayedWorld := by
  rw [replayTurns, replayedWorld]
  exact @history_verifyAndEffectuate .checksum _ _ _ _ [] .start start.sink
    (requestFor diskAuthority) (some "0000000002") rfl

/-- The authority that the first process has used has no second effect in the next one. -/
theorem replay_protected_rebooted : ∃ log log',
    @ReplayProtected .checksum
      [⟨log, Turn.pool (@Call.program .checksum) (@World.exec .checksum)
        (turnsFrom draws diskStart.world diskAuthority)
        (effectedFrom draws diskStart.world diskAuthority)⟩,
      ⟨log', Turn.pool (@Call.program .checksum) (@World.exec .checksum) replayTurns
        replayedWorld⟩] := by
  obtain ⟨log, timeline⟩ := lifetimeFrom diskAuthority_returned
  obtain ⟨log', timeline'⟩ : ∃ log, Timeline (@World.exec .checksum) (@unrestricted .checksum)
      rebooted.world log (Turn.pool (@Call.program .checksum) (@World.exec .checksum) replayTurns
        replayedWorld) :=
    Timeline.of_steps (replay_history.pool (fun _ _ _ _ => trivial) fun _ _ => id)
  have first : Lifetimes (@World.exec .checksum) (@unrestricted .checksum) Boots
      ([] ++ [⟨log, _⟩]) := Lifetimes.nil.boot diskStart_boots timeline
  have again : Boots (lastState ([] ++ [⟨log, Turn.pool (@Call.program .checksum)
      (@World.exec .checksum) (turnsFrom draws diskStart.world diskAuthority)
      (effectedFrom draws diskStart.world diskAuthority)⟩])) rebooted.world := by
    rw [lastState_append, Turn.pool_shared, ← diskFinal]
    exact rebooted_boots
  have second : Lifetimes (@World.exec .checksum) (@unrestricted .checksum) Boots
      ([] ++ [⟨log, _⟩] ++ [⟨log', _⟩]) := first.boot again timeline'
  refine ⟨log, log', @replay_protected .checksum _ _ (@unrestricted_environment .checksum) second ?_⟩
  intro earlier next later found split before thread member accepted
  rcases earlier with - | ⟨one, - | ⟨two, earlier⟩⟩
  · cases before
  · obtain ⟨-, split⟩ := List.cons.inj split
    obtain ⟨rfl, -⟩ := List.cons.inj split
    obtain ⟨turn, listed, rfl⟩ := List.mem_map.mp member
    obtain rfl := List.mem_singleton.mp listed
    cases accepted
  · obtain ⟨-, split⟩ := List.cons.inj split
    obtain ⟨-, split⟩ := List.cons.inj split
    cases earlier <;> cases split

def rebootedAuthority : NetworkFinalityAuthority :=
  (authorityOf (issuedFrom secondDraws rebooted.world).1).get (by decide +kernel)

theorem rebootedAuthority_returned :
    authorityOf (issuedFrom secondDraws rebooted.world).1 = some rebootedAuthority := by
  rw [rebootedAuthority, Option.some_get]

/-- The candidate that the first process has effectuated is effectuated again. -/
theorem restart_effectuates_again : ∃ lifetimes,
    Lifetimes (@World.exec .checksum) (@unrestricted .checksum) Boots lifetimes ∧
      ¬ @ReplayProtected .checksum lifetimes := by
  obtain ⟨log, timeline⟩ := lifetimeFrom diskAuthority_returned
  obtain ⟨log', timeline'⟩ := lifetimeFrom rebootedAuthority_returned
  have first : Lifetimes (@World.exec .checksum) (@unrestricted .checksum) Boots
      ([] ++ [⟨log, _⟩]) := Lifetimes.nil.boot diskStart_boots timeline
  have again : Boots (lastState ([] ++ [⟨log, Turn.pool (@Call.program .checksum)
      (@World.exec .checksum) (turnsFrom draws diskStart.world diskAuthority)
      (effectedFrom draws diskStart.world diskAuthority)⟩])) rebooted.world := by
    rw [lastState_append, Turn.pool_shared, ← diskFinal]
    exact rebooted_boots
  have second : Lifetimes (@World.exec .checksum) (@unrestricted .checksum) Boots
      ([] ++ [⟨log, _⟩] ++ [⟨log', _⟩]) := first.boot again timeline'
  refine ⟨_, second, fun protects => ?_⟩
  have same : 1 = 3 := @ReplayProtected.effectuated .checksum _ protects 1 3 _ _ _ rfl rfl
    (effectedFrom_second diskAuthority_returned) (effectedFrom_second rebootedAuthority_returned)
  cases same

end Reference
end NetworkFinality
