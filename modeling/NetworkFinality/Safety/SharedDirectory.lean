import NetworkFinality.Semantics.Processes
import NetworkFinality.Safety.AtMostOnce
import NetworkFinality.Safety.CounterOrder
import NetworkFinality.Safety.Restart

/-!
# Processes that run at once on one state directory

Any number of processes build the reference system on one directory and run at the same time.
The two SQLite files are all they have in common: the clock, the protected state, the nonce
registry and the networks are each process's own. A transaction of a store is one operation,
whichever process performs it, and a process that starts later is one that has performed
nothing so far.

An authority then has one effect in all processes together, and all of them build one evidence
chain. The nonce registry gives no such guarantee, since every process has its own.
-/

namespace NetworkFinality

open Python Semantics Procedure

/-- Processes on one directory share the contents of its files. -/
def World.directorySharing : Sharing World where
  same source target :=
    target.evidenceStore = source.evidenceStore ∧ target.activationStore = source.activationStore
  equivalence := {
    refl := fun _ => ⟨rfl, rfl⟩
    symm := fun ⟨evidence, activations⟩ => ⟨evidence.symm, activations.symm⟩
    trans := fun ⟨evidence, activations⟩ ⟨evidence', activations'⟩ =>
      ⟨evidence'.trans evidence, activations'.trans activations⟩ }
  share source target := { target with
    evidenceStore := source.evidenceStore
    activationStore := source.activationStore }
  same_share _ _ := ⟨rfl, rfl⟩
  share_share _ _ _ := rfl
  share_same source target same := by
    obtain ⟨evidence, activations⟩ := same
    rw [← evidence, ← activations]

section

variable [Hashlib] {P : Type} [DecidableEq P]

/-- The calls of processes on one directory. -/
abbrev Cluster (P : Type) := Processes Call.program P World

/-- The worlds of processes that build the reference system on a new directory, each with its
own arguments. -/
def onDirectory (arguments : P → SystemArguments) (clocks : P → DateTime) (process : P) : World :=
  (buildReferenceSystem (arguments process) (.sqlite .empty .empty) (clocks process)).world

/-- What the processes on one directory guarantee together. -/
structure SharesDirectory (log : List (Nat × Event system)) (cluster : Cluster P) : Prop where
  /-- A recorded effect was applied by a call of the process that has recorded it. -/
  recorded : ∀ process network effectId effect,
    (cluster.states process).effect network effectId = some effect →
      ∃ index request, (∃ thread, cluster.threads[index]? = some (process, thread)) ∧
        Application.Occurs ⟨index, request, network, effectId, effect⟩ (cluster.seenBy process)
  /-- Effects under one authority are one effect, in whichever processes. -/
  once : ∀ process, ∀ first second : Application, first.Occurs (cluster.seenBy process) →
    second.Occurs (cluster.seenBy process) →
      first.effect.authorityId = second.effect.authorityId → first = second
  /-- The authority of an effect was issued by a call of some process, for its nonce. -/
  issued : ∀ process, ∀ application : Application, application.Occurs (cluster.seenBy process) →
    ∃ issuer ∈ cluster.threads, ∃ activation : ActivationRecord,
      ⟨.putActivation activation, .ok ()⟩ ∈ issuer.2.past ∧
        activation.authorityId = application.effect.authorityId ∧
        activation.nonce = application.request.candidate.freshness.nonce.1
  /-- Every process sees the authority of an effect as used. -/
  used : ∀ process, ∀ application : Application, application.Occurs (cluster.seenBy process) →
    ∀ other, (cluster.states other).activations.Used application.effect.authorityId
  /-- What all processes have committed is one chain, in that order, and every process goes on
  where it ends. -/
  chained : ∀ process,
    Linked EvidenceRecord.previousDigest EvidenceRecord.digest genesis (committed log) ∧
      (cluster.states process).evidenceStore.tail =
        tailDigest EvidenceRecord.digest genesis (committed log)

section

variable {schedule : Schedule Call.program World} (environment : EnvironmentOnly schedule)
  (arguments : P → SystemArguments) (clocks : P → DateTime) {log : List (Nat × Event system)}
  {cluster : Cluster P}
  (run : Processes.Run World.exec schedule World.directorySharing (onDirectory arguments clocks)
    log cluster)

omit [Hashlib] [DecidableEq P] in
theorem onDirectory_alike (first second : P) :
    World.directorySharing.same (onDirectory arguments clocks first)
      (onDirectory arguments clocks second) := ⟨rfl, rfl⟩

omit [Hashlib] [DecidableEq P] in
theorem onDirectory_fresh (process : P) : (onDirectory arguments clocks process).Fresh :=
  ⟨fun _ => rfl, fun _ _ => rfl⟩

include environment in
theorem EnvironmentOnly.shares (pool : Pool Call.program World) (state : World)
    (changed : schedule.changes pool state) : World.directorySharing.same pool.shared state :=
  ⟨(environment _ _ changed).evidenceStore, (environment _ _ changed).activationStore⟩

theorem pooled_activationsKept :
    ActivationsKept (World.directorySharing.pooled schedule) := by
  rintro pool state ⟨-, activations⟩
  rw [World.activations, activations, World.activations]

theorem pooled_evidenceKept : EvidenceKept (World.directorySharing.pooled schedule) :=
  fun _ _ same => same.1

include environment run

/-- A recorded effect was applied by a call of the process that has recorded it. -/
theorem recorded_by_process {process : P} {network : Nat} {effectId : Str} {effect : NetworkEffect}
    (recorded : (cluster.states process).effect network effectId = some effect) :
    ∃ index request, (∃ thread, cluster.threads[index]? = some (process, thread)) ∧
      Application.Occurs ⟨index, request, network, effectId, effect⟩ (cluster.seenBy process) := by
  obtain ⟨index, thread, found, event, performed, draw, rfl⟩ := run.provenance
    (fun state => state.effect network effectId = some effect)
    (fun event : Event system => ∃ draw, event = ⟨.apply network effect draw, .ok effectId⟩)
    (fun op state => (World.exec_effect op state).origin)
    (fun source target shown => shown)
    (fun pool state allowed shown => by rwa [(environment _ _ allowed).effect] at shown)
    (fun process => by simp [(onDirectory_fresh arguments clocks process).effects]) recorded
  obtain ⟨sink, request, authority, call, -⟩ := applied_of_thread performed
  exact ⟨index, request, ⟨thread, found⟩, thread, sink, draw,
    Processes.seenBy_getElem?.mpr ⟨process, found⟩, call, performed⟩

/-- Under every interleaving of the calls of any number of processes on one directory, each
authority has at most one effect in all processes together, which a call of some process has
issued it for, and the evidence of all processes is one chain. -/
theorem processes_share_directory : SharesDirectory log cluster := by
  have timeline := run.timeline (onDirectory_alike arguments clocks) environment.shares
  have fresh := onDirectory_fresh arguments clocks
  refine ⟨?_, ?_, ?_, ?_, ?_⟩
  · intro process network effectId effect recorded
    exact recorded_by_process environment arguments clocks run recorded
  · intro process first second occurs occurs' same
    exact occurs.same pooled_activationsKept (timeline process process).steps occurs' same
  · intro process application occurs
    obtain ⟨thread, sink, draw, authority, found, call, named, cleared, written⟩ := occurs.thread
    obtain ⟨issuer, member, activation, put, vouched⟩ := cleared_vouched pooled_activationsKept
      (fresh process) (timeline process process).steps (List.mem_of_getElem? found) cleared
    obtain ⟨⟨home, issuer'⟩, listed, same⟩ := List.mem_map.mp member
    obtain rfl : issuer' = issuer := same
    exact ⟨(home, issuer'), listed, activation, put, vouched.authorityId.trans named.symm,
      vouched.nonce⟩
  · intro process application occurs other
    exact occurs.used pooled_activationsKept (timeline process other).steps
  · intro process
    exact committed_linked pooled_evidenceKept (timeline process process) .empty rfl

end

omit [Hashlib] in
/-- The clock and the bound parts of the protected state are those of the other world. -/
structure World.ShowsAlike (source target : World) : Prop where
  clock : target.clock = source.clock
  epochs : ∀ epoch, target.state.epoch epoch = source.state.epoch epoch
  reference : target.state.protectedStateReference = source.state.protectedStateReference

/-- What one process permits, every other one with this clock and this protected state does. -/
theorem Permitted.shared {source target : World} (alike : World.ShowsAlike source target)
    {sink : NetworkFinalitySink} {request : SinkRequest} {authority : NetworkFinalityAuthority}
    {evidence : EvidenceRecord} {activation : ActivationRecord}
    (permitted : Permitted source sink request authority evidence activation) :
    Permitted (World.directorySharing.share source target) sink request authority evidence
      activation where
  toAdmitted := by
    change Admitted sink request authority target.clock evidence activation
    rw [alike.clock]
    exact permitted.toAdmitted
  evidenceStored := permitted.evidenceStored
  activationStored := permitted.activationStored
  unused := permitted.unused
  reference := alike.reference.trans permitted.reference
  epochs epoch := (alike.epochs epoch).trans (permitted.epochs epoch)

/-- A call leaves the clock and the bound parts of the protected state alone. -/
theorem showsAlike_run {α : Type} (program : Program α) (world : World) :
    World.ShowsAlike (program.run World.exec world).2 world := by
  refine (trace_answered World.exec program world).keeps World.exec
    (fun final => World.ShowsAlike final world) ?_ ⟨rfl, fun _ => rfl, rfl⟩
  intro event _ final shows
  refine ⟨?_, fun epoch => ?_, ?_⟩
  · rw [World.exec_clock, shows.clock]
  · rw [shows.epochs]
    exact (World.observes.stable (.epoch epoch) rfl event.op final).symm
  · rw [shows.reference]
    exact (World.observes.stable .protectedStateReference rfl event.op final).symm

end

namespace Reference

/-- The world of a second process on the directory, once the first has issued the authority. -/
def peerWorld : World :=
  World.directorySharing.share (issuedFrom draws diskStart.world).2 diskStart.world

/-- The second process permits the request for the authority. -/
theorem peer_permitted : ∃ authority evidence activation,
    @Permitted .checksum peerWorld start.sink (requestFor diskAuthority) authority evidence
      activation := by
  obtain ⟨response, allowed⟩ := allowedFrom diskAuthority_returned
  obtain ⟨authority, evidence, activation, hex, permitted, -⟩ :=
    (@NetworkFinalitySink.verifyAndEffectuate_ok _ _ _ _ .checksum _ _).mp allowed
  have alike := @showsAlike_run .checksum _
    (@ProtectedEnforcementDomain.validateAndIssue .checksum start.ped draws candidate)
    diskStart.world
  rw [← issuedFrom] at alike
  exact ⟨authority, evidence, activation, @Permitted.shared .checksum _ _ alike _ _ _ _ _ permitted⟩

/-- Two processes with the same arguments. -/
def pair : Bool → World := onDirectory (fun _ => arguments) fun _ => clock

theorem pair_eq (process : Bool) : pair process = diskStart.world := by
  rw [pair, onDirectory, diskStart]

theorem pair_spread :
    World.directorySharing.spread pair false (issuedFrom draws diskStart.world).2 true =
      peerWorld := by
  rw [Sharing.spread, if_neg Bool.true_eq_false_eq_False, pair_eq, peerWorld]

/-- One process issues an authority and another one applies the effect, which is the only one
in both. -/
theorem processes_share_directory_crossed :
    ∃ log cluster, Processes.Run (@World.exec .checksum) (@unrestricted .checksum)
        World.directorySharing pair log cluster ∧
      @SharesDirectory .checksum Bool log cluster ∧
      ∃ application : Application,
        @Application.Occurs .checksum application (cluster.seenBy true) := by
  have environment := @unrestricted_environment .checksum
  have alike := @onDirectory_alike Bool (fun _ => arguments) fun _ => clock
  have shares := @EnvironmentOnly.shares .checksum _ environment
  have none_yet : Processes.Run (@World.exec .checksum) (@unrestricted .checksum)
      World.directorySharing pair [] ⟨pair, []⟩ := .initial
  -- The first process issues the authority.
  obtain ⟨events, ended, path, answers⟩ : ∃ events ended,
      (@ProtectedEnforcementDomain.validateAndIssue .checksum start.ped draws candidate).Path events
          ended ∧
        Answered (@World.exec .checksum) (pair false) events (issuedFrom draws diskStart.world).2 := by
    rw [pair_eq, issuedFrom]
    exact ⟨_, _, trace_path _ _ _, trace_answered _ _ _⟩
  have issued := none_yet.called alike shares false (.validateAndIssue start.ped draws candidate)
    trivial path answers
  -- The second process applies the effect.
  obtain ⟨authority, evidence, activation, permitted⟩ := peer_permitted
  rw [← pair_spread] at permitted
  obtain ⟨past, returned, answered⟩ := (run_ok_iff (@World.exec .checksum)).mp
    ((@NetworkFinalitySink.verifyAndEffectuate_ok _ _ (some "0000000001") _ .checksum _ _).mpr
      ⟨authority, evidence, activation, "0000000001", permitted, rfl, rfl, rfl⟩)
  have effecting := issued.called alike shares true
    (.verifyAndEffectuate start.sink (requestFor diskAuthority) (some "0000000001")) trivial
    returned answered
  obtain ⟨authority, now, evidence, activation, effectId, -, rfl, -⟩ :=
    (@NetworkFinalitySink.verifyAndEffectuate_returns _ _ _ _ _ .checksum).mp returned
  have applied : ⟨.apply start.sink.network
      (NetworkFinalitySink.effectOf (requestFor diskAuthority) authority) (some "0000000001"),
      .ok effectId⟩ ∈ guardEvents authority now evidence activation ++
        NetworkFinalitySink.lockEvents start.sink (requestFor diskAuthority) authority
          (some "0000000001") effectId :=
    List.mem_append_right _ (.tail _ (.tail _ (.head _)))
  exact ⟨_, _, effecting, @processes_share_directory .checksum _ _ _ environment _ _ _ _ effecting,
    ⟨1, requestFor diskAuthority, start.sink.network, effectId, _⟩,
    ⟨.verifyAndEffectuate start.sink (requestFor diskAuthority) (some "0000000001"), _, _, returned⟩,
    start.sink, some "0000000001", rfl, rfl, applied⟩

end Reference
end NetworkFinality
