import NetworkFinality.Model.Restart
import NetworkFinality.Safety.EvidenceFirst

/-!
# The order of counters along the evidence chain

The evidence chain of a process is the sequence of its commits, and of several
processes on one directory the sequence of all their commits. A call takes its
counter in one step and commits its evidence in a later one, so another call may
overtake it in between; and a new process begins to count where the defaults do.
The counters increase along the chain exactly when no call is overtaken, and, across
processes, when evidence is committed on an empty chain only.
-/

namespace NetworkFinality

open Python Semantics Procedure

/-- The counter that an event took. -/
def counterTaken : Event system → Option Int
  | ⟨.advanceCounter, counter⟩ => some counter
  | _ => none

/-- The evidence that an event committed. -/
def evidenceCommitted : Event system → Option EvidenceRecord
  | ⟨.commitEvidence _, .ok record⟩ => some record
  | _ => none

theorem evidenceCommitted_iff {event : Event system} {record : EvidenceRecord} :
    evidenceCommitted event = some record ↔ ∃ fields, event = ⟨.commitEvidence fields, .ok record⟩ := by
  constructor
  · intro committed
    unfold evidenceCommitted at committed
    split at committed
    · next fields _ => exact ⟨fields, by rw [Option.some.inj committed]⟩
    · cases committed
  · rintro ⟨fields, rfl⟩
    rfl

/-- The counters that the calls of a process took, in the order in which they did. -/
def taken (log : List (Nat × Event system)) : List Int :=
  log.filterMap fun entry => counterTaken entry.2

/-- The evidence that a process has committed, in the order of the commits. -/
def committed (log : List (Nat × Event system)) : List EvidenceRecord :=
  log.filterMap fun entry => evidenceCommitted entry.2

/-- One entry of a log stands before another. -/
def Precedes (log : List (Nat × Event system)) (first second : Nat × Event system) : Prop :=
  ∃ earlier later : Nat, earlier < later ∧ log[earlier]? = some first ∧ log[later]? = some second

/-- A call takes its counter before another and commits its evidence after it. -/
def Overtaken (log : List (Nat × Event system)) : Prop :=
  ∃ (i j : Nat) (counter counter' : Int) (fields fields' : EvidenceFields)
    (record record' : EvidenceRecord),
    Precedes log (i, ⟨.advanceCounter, counter⟩) (j, ⟨.advanceCounter, counter'⟩) ∧
      Precedes log (j, ⟨.commitEvidence fields', .ok record'⟩)
        (i, ⟨.commitEvidence fields, .ok record⟩)

/-! ### What an operation does to the counter and the chain -/

namespace World

variable [Hashlib] (op : Op) (world : World)

/-- An operation that takes a counter takes the next one; no other changes it. -/
theorem exec_counter :
    (exec op world).2.state.monotonicCounter =
      (counterTaken ⟨op, (exec op world).1⟩).getD world.state.monotonicCounter ∧
    ∀ counter, counterTaken ⟨op, (exec op world).1⟩ = some counter →
      counter = world.state.monotonicCounter + 1 := by
  cases op with
  | advanceCounter =>
      refine ⟨rfl, ?_⟩
      intro counter same
      exact (Option.some.inj same).symm
  | _ =>
      refine ⟨?_, by simp [counterTaken]⟩
      simp only [exec]
      try split
      all_goals rfl

/-- An operation that commits evidence appends it to the chain; no other changes the
tail. -/
theorem exec_tail :
    (exec op world).2.evidenceStore.tail =
      ((evidenceCommitted ⟨op, (exec op world).1⟩).map (·.digest)).getD
        world.evidenceStore.tail ∧
    ∀ record, evidenceCommitted ⟨op, (exec op world).1⟩ = some record →
      record.previousDigest = world.evidenceStore.tail := by
  cases op with
  | commitEvidence fields =>
      rcases outcome : world.evidenceStore.commit fields with error | ⟨record, store⟩
      · simp [exec, outcome, evidenceCommitted]
      · have facts := EvidenceStore.commit_ok outcome
        have previous : record.previousDigest = world.evidenceStore.tail := by rw [facts.returned]
        simp [exec, outcome, evidenceCommitted, facts.tail, previous]
  | _ =>
      refine ⟨?_, by simp [evidenceCommitted]⟩
      simp only [exec]
      try split
      all_goals rfl

end World

/-! ### What a call takes and commits -/

section

variable [Hashlib]

omit [Hashlib] in
private theorem effectuates_not_records {op : Op} (effectuates : NetworkFinalitySink.Effectuates op) :
    ¬ ProtectedEnforcementDomain.Records op := by
  rintro (rfl | ⟨fields, rfl⟩)
  · cases effectuates
  · cases effectuates

namespace Call

/-- A call takes at most one counter. -/
theorem advances_once (call : Call) : call.program.Single fun op : Op => op = .advanceCounter := by
  cases call with
  | validateAndIssue ped draws candidate =>
      exact ProtectedEnforcementDomain.validateAndIssue_advances_once
  | verifyAndEffectuate sink request draw =>
      refine .none (NetworkFinalitySink.verifyAndEffectuate_uses.mono ?_)
      exact fun op effectuates advances => effectuates_not_records effectuates (.inl advances)

/-- A call commits at most one evidence record. -/
theorem commits_once (call : Call) :
    call.program.Single ProtectedEnforcementDomain.Commits := by
  cases call with
  | validateAndIssue ped draws candidate =>
      exact ProtectedEnforcementDomain.validateAndIssue_commits_once
  | verifyAndEffectuate sink request draw =>
      refine .none (NetworkFinalitySink.verifyAndEffectuate_uses.mono ?_)
      exact fun op effectuates commits => effectuates_not_records effectuates (.inr commits)

end Call

/-- A thread that is about to commit evidence has taken the counter it records. -/
theorem thread_advanced {thread : Thread Call.program} {fields : EvidenceFields}
    {next : Op.Answer (.commitEvidence fields) → Program thread.call.Result}
    (calls : thread.rest = .call (.commitEvidence fields) next) :
    ⟨.advanceCounter, fields.monotonicCounter⟩ ∈ thread.past := by
  have path := thread.reached
  rw [calls] at path
  obtain ⟨call, past, rest, reached⟩ := thread
  cases call with
  | validateAndIssue ped draws candidate =>
      exact ProtectedEnforcementDomain.commit_advanced path
  | verifyAndEffectuate sink request draw =>
      have uses := NetworkFinalitySink.verifyAndEffectuate_uses.remains path
      exact absurd (.inr ⟨fields, rfl⟩) (effectuates_not_records (uses_call.mp uses).1)

end

/-! ### One process -/

/-- The environment of a schedule keeps to the clock and the protected state, and leaves
the counter to the calls. -/
structure CounterKept [Hashlib] (schedule : Schedule Call.program World) : Prop where
  environment : EnvironmentOnly schedule
  counter : ∀ pool state, schedule.changes pool state →
    state.state.monotonicCounter = pool.shared.state.monotonicCounter

section

variable [Hashlib] {schedule : Schedule Call.program World} {initial : World}
  {log : List (Nat × Event system)} {pool : Pool Call.program World}

omit [Hashlib] in
theorem taken_append (log : List (Nat × Event system)) (index : Nat) (event : Event system) :
    taken (log ++ [(index, event)]) = taken log ++ (counterTaken event).toList := by
  cases found : counterTaken event <;> simp [taken, found]

omit [Hashlib] in
theorem committed_append (log : List (Nat × Event system)) (index : Nat) (event : Event system) :
    committed (log ++ [(index, event)]) = committed log ++ (evidenceCommitted event).toList := by
  cases found : evidenceCommitted event <;> simp [committed, found]

/-- The counters of a process increase, from the one it began with up to the current. -/
theorem taken_increasing (kept : CounterKept schedule)
    (timeline : Timeline World.exec schedule initial log pool) :
    (taken log).Pairwise (· < ·) ∧
      initial.state.monotonicCounter ≤ pool.shared.state.monotonicCounter ∧
      ∀ counter ∈ taken log, initial.state.monotonicCounter < counter ∧
        counter ≤ pool.shared.state.monotonicCounter := by
  induction timeline with
  | initial => exact ⟨.nil, Int.le_refl _, nofun⟩
  | start _ _ inductionHypothesis => exact inductionHypothesis
  | @perform log pool index thread op next _ _ _ inductionHypothesis =>
      obtain ⟨sorted, grown, bounded⟩ := inductionHypothesis
      obtain ⟨counter, next⟩ := World.exec_counter op pool.shared
      rw [taken_append]
      dsimp only
      cases event : counterTaken ⟨op, (World.exec op pool.shared).1⟩ with
      | none =>
          simp only [event, Option.getD_none] at counter
          simpa [counter] using ⟨sorted, grown, bounded⟩
      | some fresh =>
          simp only [event, Option.getD_some] at counter
          have increased := next fresh event
          refine ⟨List.pairwise_append.mpr ⟨sorted, by simp, ?_⟩, by omega, ?_⟩
          · intro earlier member later last
            have bound := (bounded earlier member).2
            simp only [Option.toList_some, List.mem_singleton] at last
            omega
          · intro member present
            rcases List.mem_append.mp present with old | new
            · have bound := bounded member old
              omega
            · simp only [Option.toList_some, List.mem_singleton] at new
              omega
  | change _ allowed inductionHypothesis => simpa [kept.counter _ _ allowed] using inductionHypothesis

/-- A process continues the chain it has found by its commits, in their order. -/
theorem committed_linked (kept : EvidenceKept schedule)
    (timeline : Timeline World.exec schedule initial log pool) {chain : List EvidenceRecord}
    (linked : Linked EvidenceRecord.previousDigest EvidenceRecord.digest genesis chain)
    (tail : initial.evidenceStore.tail = tailDigest EvidenceRecord.digest genesis chain) :
    Linked EvidenceRecord.previousDigest EvidenceRecord.digest genesis (chain ++ committed log) ∧
      pool.shared.evidenceStore.tail =
        tailDigest EvidenceRecord.digest genesis (chain ++ committed log) := by
  induction timeline with
  | initial => simpa [committed] using ⟨linked, tail⟩
  | start _ _ inductionHypothesis => exact inductionHypothesis
  | @perform log pool index thread op next _ _ _ inductionHypothesis =>
      obtain ⟨linked, tail⟩ := inductionHypothesis
      obtain ⟨after, names⟩ := World.exec_tail op pool.shared
      rw [committed_append]
      cases event : evidenceCommitted ⟨op, (World.exec op pool.shared).1⟩ with
      | none =>
          simp only [event, Option.map_none, Option.getD_none] at after
          simpa [after] using ⟨linked, tail⟩
      | some record =>
          simp only [event, Option.map_some, Option.getD_some] at after
          rw [Option.toList_some, ← List.append_assoc, tailDigest_append]
          exact ⟨linked_append.mpr ⟨linked, (names record event).trans tail⟩, after⟩
  | change _ allowed inductionHypothesis =>
      rw [kept _ _ allowed]
      exact inductionHypothesis

/-- A call that has committed evidence has taken the counter the record holds. -/
theorem committed_advanced (timeline : Timeline World.exec schedule initial log pool)
    {index : Nat} {fields : EvidenceFields} {record : EvidenceRecord}
    (performed : (index, ⟨.commitEvidence fields, .ok record⟩) ∈ log) :
    (index, ⟨.advanceCounter, record.monotonicCounter⟩) ∈ log := by
  induction timeline with
  | initial => cases performed
  | start _ _ inductionHypothesis => exact inductionHypothesis performed
  | @perform log pool actor thread op next earlier found calls inductionHypothesis =>
      rcases List.mem_append.mp performed with old | new
      · exact List.mem_append_left _ (inductionHypothesis old)
      · obtain ⟨rfl, same⟩ := Prod.mk.inj (List.mem_singleton.mp new)
        obtain ⟨rfl, answered⟩ := Event.mk.inj same
        have asked := (World.exec_commit pool.shared (eq_of_heq answered).symm).1
        have advanced := (earlier.mem_iff found).mpr (thread_advanced calls)
        rw [← asked] at advanced
        exact List.mem_append_left _ advanced
  | change _ _ inductionHypothesis => exact inductionHypothesis performed

/-- The counters of a process increase along its commits exactly when no call is
overtaken. -/
theorem counters_increase_iff (kept : CounterKept schedule)
    (timeline : Timeline World.exec schedule initial log pool) :
    ((committed log).map (·.monotonicCounter)).Pairwise (· < ·) ↔ ¬ Overtaken log := by
  -- Counters are taken in increasing order.
  have increasing : ∀ {i j : Nat} {counter counter' : Int},
      Precedes log (i, ⟨.advanceCounter, counter⟩) (j, ⟨.advanceCounter, counter'⟩) →
      counter < counter' := by
    rintro i j counter counter' ⟨earlier, later, order, atEarlier, atLater⟩
    have sorted := List.pairwise_filterMap.mp (taken_increasing kept timeline).1
    obtain ⟨place, found⟩ := List.getElem?_eq_some_iff.mp atEarlier
    obtain ⟨place', found'⟩ := List.getElem?_eq_some_iff.mp atLater
    have related := List.pairwise_iff_getElem.mp sorted earlier later place place' order
    rw [found, found'] at related
    exact related counter rfl counter' rfl
  -- A call has one counter, which its evidence records.
  have recorded : ∀ {index : Nat} {counter : Int} {fields : EvidenceFields} {record : EvidenceRecord},
      (index, ⟨.advanceCounter, counter⟩) ∈ log →
      (index, ⟨.commitEvidence fields, .ok record⟩) ∈ log → counter = record.monotonicCounter := by
    intro index counter fields record advanced performed
    obtain ⟨place, atPlace⟩ := List.mem_iff_getElem?.mp advanced
    obtain ⟨place', atPlace'⟩ := List.mem_iff_getElem?.mp (committed_advanced timeline performed)
    obtain rfl := timeline.single Call.advances_once atPlace atPlace' rfl rfl
    have same := Option.some.inj (atPlace.symm.trans atPlace')
    exact eq_of_heq (Event.mk.inj (Prod.mk.inj same).2).2
  rw [List.pairwise_map, committed, List.pairwise_filterMap, List.pairwise_iff_getElem]
  constructor
  · rintro sorted ⟨i, j, counter, counter', fields, fields', record, record', advances,
      earlier, later, order, atEarlier, atLater⟩
    obtain ⟨place, found⟩ := List.getElem?_eq_some_iff.mp atEarlier
    obtain ⟨place', found'⟩ := List.getElem?_eq_some_iff.mp atLater
    have related := sorted earlier later place place' order record' (by rw [found]; rfl) record
      (by rw [found']; rfl)
    have taken := increasing advances
    obtain ⟨first, second, -, atFirst, atSecond⟩ := advances
    have own := recorded (List.mem_of_getElem? atFirst) (List.mem_of_getElem? atLater)
    have own' := recorded (List.mem_of_getElem? atSecond) (List.mem_of_getElem? atEarlier)
    omega
  · intro inOrder earlier later place place' order record' committed' record committed
    obtain ⟨fields', event'⟩ := evidenceCommitted_iff.mp committed'
    obtain ⟨fields, event⟩ := evidenceCommitted_iff.mp committed
    have atEarlier : log[earlier]? = some (log[earlier].1, ⟨.commitEvidence fields', .ok record'⟩) := by
      rw [← event', List.getElem?_eq_getElem place]
    have atLater : log[later]? = some (log[later].1, ⟨.commitEvidence fields, .ok record⟩) := by
      rw [← event, List.getElem?_eq_getElem place']
    obtain ⟨first, atFirst⟩ := List.mem_iff_getElem?.mp
      (committed_advanced timeline (List.mem_of_getElem? atEarlier))
    obtain ⟨second, atSecond⟩ := List.mem_iff_getElem?.mp
      (committed_advanced timeline (List.mem_of_getElem? atLater))
    rcases Nat.lt_trichotomy first second with before | same | after
    · exact increasing ⟨first, second, before, atFirst, atSecond⟩
    · -- One advance for both commits would be one call that commits twice.
      rw [same, atSecond] at atFirst
      obtain ⟨index, -⟩ := Prod.mk.inj (Option.some.inj atFirst)
      rw [index] at atLater
      have alike := timeline.single Call.commits_once atEarlier atLater ⟨_, rfl⟩ ⟨_, rfl⟩
      omega
    · exact absurd ⟨_, _, _, _, _, _, _, _, ⟨second, first, after, atSecond, atFirst⟩,
        earlier, later, order, atEarlier, atLater⟩ inOrder

end

/-! ### Processes on one directory -/

/-- The evidence chain that processes have built one after the other. -/
def chain [Hashlib] (lifetimes : List (Lifetime Call.program World)) : List EvidenceRecord :=
  lifetimes.flatMap fun lifetime => committed lifetime.log

/-- No call is overtaken, and a process commits evidence only on an empty chain. -/
structure Orderly [Hashlib] (lifetimes : List (Lifetime Call.program World)) : Prop where
  inOrder : ∀ lifetime ∈ lifetimes, ¬ Overtaken lifetime.log
  begins : ∀ earlier next later, lifetimes = earlier ++ next :: later → committed next.log ≠ [] →
    chain earlier = []

section

variable [Hashlib] {schedule : Schedule Call.program World}
  {lifetimes : List (Lifetime Call.program World)}

theorem chain_append (lifetimes : List (Lifetime Call.program World))
    (next : Lifetime Call.program World) :
    chain (lifetimes ++ [next]) = chain lifetimes ++ committed next.log := by
  simp [chain]

omit [Hashlib] in
/-- A process begins at the tail of the chain it has found. -/
theorem Boots.tail {last : Option World} {world : World} (boots : Boots last world) :
    world.evidenceStore.tail = (last.map (·.evidenceStore.tail)).getD genesis := by
  cases boots with
  | first arguments clock empty => rcases empty with rfl | rfl <;> rfl
  | again arguments clock evidenceFile activationFile =>
      rw [Option.map_some, evidenceFile]
      rfl

/-- The processes on one directory build one chain. -/
theorem chain_linked (environment : EnvironmentOnly schedule)
    (run : Lifetimes World.exec schedule Boots lifetimes) :
    Linked EvidenceRecord.previousDigest EvidenceRecord.digest genesis (chain lifetimes) ∧
      ((lastState lifetimes).map (·.evidenceStore.tail)).getD genesis =
        tailDigest EvidenceRecord.digest genesis (chain lifetimes) := by
  induction run with
  | nil => exact ⟨.empty, rfl⟩
  | boot _ allowed timeline inductionHypothesis =>
      obtain ⟨linked, tail⟩ := inductionHypothesis
      rw [chain_append, lastState_append]
      exact committed_linked environment.evidenceKept timeline linked (allowed.tail.trans tail)

/-- Along the evidence chain of any processes on one directory the counters increase, when
no call is overtaken by another and evidence is committed on an empty chain only. -/
theorem counters_follow_chain (kept : CounterKept schedule)
    (run : Lifetimes World.exec schedule Boots lifetimes) (orderly : Orderly lifetimes) :
    Linked EvidenceRecord.previousDigest EvidenceRecord.digest genesis (chain lifetimes) ∧
      ((chain lifetimes).map (·.monotonicCounter)).Pairwise (· < ·) := by
  refine ⟨(chain_linked kept.environment run).1, ?_⟩
  induction run with
  | nil => exact .nil
  | @boot lifetimes next initial earlier allowed timeline inductionHypothesis =>
      obtain ⟨inOrder, begins⟩ := orderly
      have before : Orderly lifetimes := by
        refine ⟨fun lifetime member => inOrder lifetime (List.mem_append_left _ member), ?_⟩
        intro first middle rest split
        exact begins first middle (rest ++ [next]) (by simp [split])
      rw [chain_append]
      by_cases quiet : committed next.log = []
      · rw [quiet, List.append_nil]
        exact inductionHypothesis before
      · rw [begins lifetimes next [] rfl quiet, List.nil_append]
        exact (counters_increase_iff kept timeline).mpr (inOrder next (by simp))

end

namespace Reference

/-- Calls of one domain, and an environment that changes nothing. -/
def concurrently (ped : ProtectedEnforcementDomain) : Schedule (@Call.program .checksum) World where
  starts _ call := ∃ draws candidate, call = .validateAndIssue ped draws candidate
  changes _ _ := False

theorem concurrently_kept (ped : ProtectedEnforcementDomain) :
    @CounterKept .checksum (concurrently ped) := by
  refine @CounterKept.mk .checksum _ ?_ ?_
  · intro pool state changes
    cases changes
  · intro pool state changes
    cases changes

/-- A candidate that the policy denies, for it is created in the future. -/
def futureCandidate : NetworkCandidateAct :=
  valueOf (@makeCandidate .checksum candidateArguments ⟨63900000001000000, by decide⟩)
    (by decide +kernel)

def deniedCall (draws : IssueDraws) : Call := .validateAndIssue start.ped draws futureCandidate

/-- What a denied call performs from a world. -/
def deniedTrace (draws : IssueDraws) (world : World) : List (Event system) :=
  (@Call.program .checksum (deniedCall draws)).trace (@World.exec .checksum) world

/-- The world after a denied call. -/
def deniedWorld (draws : IssueDraws) (world : World) : World :=
  ((@Call.program .checksum (deniedCall draws)).run (@World.exec .checksum) world).2

def laterDraws : IssueDraws where
  decisionHex := "000000000007"
  evidenceHex := "000000000008"
  authorityHex := "000000000009"
  token := List.replicate 32 9

/-! ### An overtaken call -/

theorem deniedTrace_start : deniedTrace draws start.world ≠ [] := by
  decide +kernel

/-- The call stops before its commit. -/
def stoppedTrace : List (Event system) := (deniedTrace draws start.world).dropLast

def stoppedWorld : World := replay (@World.exec .checksum) start.world stoppedTrace

def commitEvent : Event system := (deniedTrace draws start.world).getLast deniedTrace_start

/-- An operation with the answer it gets. -/
def answered (op : Op) (world : World) : Event system := ⟨op, (@World.exec .checksum op world).1⟩

/-- The first call takes its counter, a second call runs, and the first commits. -/
def overtakenLog : List (Nat × Event system) :=
  (stoppedTrace.map fun event => (0, event)) ++
    ((deniedTrace laterDraws stoppedWorld).map fun event => (1, event)) ++
    [(0, answered commitEvent.op (deniedWorld laterDraws stoppedWorld))]

theorem overtakenLog_counters :
    (committed overtakenLog).map (·.monotonicCounter) = [184993, 184992] := by
  decide +kernel

theorem denied_starts (draws : IssueDraws) (pool : Pool (@Call.program .checksum) World) :
    (concurrently start.ped).starts pool (deniedCall draws) :=
  ⟨draws, futureCandidate, by rw [deniedCall]⟩

theorem overtakenLog_timeline : ∃ pool,
    Timeline (@World.exec .checksum) (concurrently start.ped) start.world overtakenLog pool := by
  have split : stoppedTrace ++ [commitEvent] = deniedTrace draws start.world := by
    rw [stoppedTrace, commitEvent, List.dropLast_append_getLast]
  rw [overtakenLog, answered, deniedTrace, deniedWorld, stoppedWorld]
  rw [deniedTrace] at split
  exact Timeline.overtake (denied_starts draws) (denied_starts laterDraws) split

/-! ### A restart -/

/-- What the first process leaves. -/
def diskWorld : World := deniedWorld draws diskStart.world

/-- The second process on the directory. -/
def restarted : ReferenceSystem := buildReferenceSystem arguments diskWorld.directory clock

/-- A process that has run one denied call. -/
def deniedLifetime (draws : IssueDraws) (world : World) :
    Lifetime (@Call.program .checksum) World where
  log := (deniedTrace draws world).map fun event => (0, event)
  pool := ⟨deniedWorld draws world,
    [(Thread.start (@Call.program .checksum) (deniedCall draws)).complete (@World.exec .checksum)
      world]⟩

theorem deniedLifetime_timeline (draws : IssueDraws) (world : World) :
    Timeline (@World.exec .checksum) (concurrently start.ped) world
      (deniedLifetime draws world).log (deniedLifetime draws world).pool := by
  have none_yet : Timeline (@World.exec .checksum) (concurrently start.ped) world []
      (Pool.initial (@Call.program .checksum) world) := .initial
  have ended := none_yet.whole (denied_starts draws _)
  rw [deniedLifetime, deniedTrace, deniedWorld]
  exact ended

theorem deniedLifetime_shared (draws : IssueDraws) (world : World) :
    (deniedLifetime draws world).pool.shared = deniedWorld draws world := by
  rw [deniedLifetime]

def restartedLifetimes : List (Lifetime (@Call.program .checksum) World) :=
  [deniedLifetime draws diskStart.world, deniedLifetime laterDraws restarted.world]

theorem restarted_run : Lifetimes (@World.exec .checksum) (concurrently start.ped) Boots
    restartedLifetimes := by
  have onDisk : diskWorld.OnDisk := @onDisk_run .checksum _ _ _ (onDisk_built arguments clock)
  have again : Boots (lastState ([] ++ [deniedLifetime draws diskStart.world])) restarted.world := by
    rw [lastState_append, deniedLifetime_shared, ← diskWorld, restarted]
    exact Boots.directory onDisk arguments clock
  have one := Lifetimes.nil.boot diskStart_boots (deniedLifetime_timeline draws diskStart.world)
  exact one.boot again (deniedLifetime_timeline laterDraws restarted.world)

theorem restarted_counters :
    (@chain .checksum restartedLifetimes).map (·.monotonicCounter) = [184992, 184992] := by
  decide +kernel

/-- A second call while a first one has yet to commit, or after a restart: either way the
counters do not increase along the chain. -/
theorem counters_disagree_with_chain :
    (∃ log pool, Timeline (@World.exec .checksum) (concurrently start.ped) start.world log pool ∧
      ¬ ((committed log).map (·.monotonicCounter)).Pairwise (· < ·)) ∧
    ∃ lifetimes, Lifetimes (@World.exec .checksum) (concurrently start.ped) Boots lifetimes ∧
      ¬ ((@chain .checksum lifetimes).map (·.monotonicCounter)).Pairwise (· < ·) := by
  obtain ⟨pool, timeline⟩ := overtakenLog_timeline
  refine ⟨⟨overtakenLog, pool, timeline, ?_⟩, restartedLifetimes, restarted_run, ?_⟩
  · rw [overtakenLog_counters]
    decide
  · rw [restarted_counters]
    decide

/-- The process runs another denied call after the first. -/
def orderedLifetime : Lifetime (@Call.program .checksum) World where
  log := (deniedLifetime draws diskStart.world).log ++
    (deniedTrace laterDraws diskWorld).map fun event => (1, event)
  pool := ⟨deniedWorld laterDraws diskWorld, (deniedLifetime draws diskStart.world).pool.threads ++
    [(Thread.start (@Call.program .checksum) (deniedCall laterDraws)).complete
      (@World.exec .checksum) diskWorld]⟩

theorem orderedLifetime_timeline : Timeline (@World.exec .checksum) (concurrently start.ped)
    diskStart.world orderedLifetime.log orderedLifetime.pool := by
  have ended := (deniedLifetime_timeline draws diskStart.world).whole (denied_starts laterDraws _)
  have one : (deniedLifetime draws diskStart.world).pool.threads.length = 1 := rfl
  rw [deniedLifetime_shared, ← diskWorld, one, ← deniedTrace, ← deniedWorld] at ended
  exact ended

theorem orderedLifetime_counters :
    (committed orderedLifetime.log).map (·.monotonicCounter) = [184992, 184993] := by
  decide +kernel

/-- The counters increase along the chain of two calls that run one after the other. -/
theorem counters_follow_chain_ordered :
    ((@chain .checksum [orderedLifetime]).map (·.monotonicCounter)).Pairwise (· < ·) := by
  have run := Lifetimes.nil.boot diskStart_boots orderedLifetime_timeline
  have increasing : ¬ Overtaken orderedLifetime.log := by
    rw [← @counters_increase_iff .checksum _ _ _ _ (concurrently_kept start.ped)
      orderedLifetime_timeline, orderedLifetime_counters]
    decide
  have orderly : @Orderly .checksum ([] ++ [orderedLifetime]) := by
    refine @Orderly.mk .checksum _ ?_ ?_
    · intro lifetime member
      rw [List.mem_singleton.mp member]
      exact increasing
    · intro earlier next later split _
      rcases earlier with - | ⟨first, earlier⟩
      · rfl
      · simp at split
  exact (@counters_follow_chain .checksum _ _ (concurrently_kept start.ped) run orderly).2

end Reference
end NetworkFinality
