import NetworkFinality.Safety.SinkAtomicity
import NetworkFinality.Semantics.Claims

/-!
# The order of requests

A request changes nothing but the consumption flag of its own authority and the network.
No guard reads the network, and no guard reads the flag of another authority, so
requests for different authorities do not notice each other. Requests for one authority
do, but only one of those that are permitted at all is allowed, whichever comes first.
-/

namespace NetworkFinality

open Python Semantics Procedure

/-- What a caller learns from a request, beside the identifier of the effect. -/
structure SinkVerdict where
  decision : Decision
  code : Str
  verification : Dict Str

def SinkVerifyResponse.verdict (response : SinkVerifyResponse) : SinkVerdict :=
  ⟨response.decision, response.code, response.verification⟩

/-- The verdict of a call that responds, by returning or by denying. -/
def verdict : Except Exit SinkVerifyResponse → Except PyError SinkVerdict
  | .ok response => .ok response.verdict
  | .error (.denied response) => .ok response.verdict
  | .error (.raised error) => .error error

/-- The call has responded with ALLOW. -/
def isAllowed (outcome : Except Exit SinkVerifyResponse) : Bool :=
  match verdict outcome with
  | .ok verdict => verdict.decision = .allow
  | .error _ => false

/-- The identifier of the authority that the request presents. -/
def SinkRequest.authorityId (request : SinkRequest) : Option Str :=
  request.authority.map (·.authorityId)

namespace NetworkFinalitySink

variable [Hashlib]

/-- Serve requests one after the other, each with the digits drawn for its effect. -/
def serve (sink : NetworkFinalitySink) :
    List (SinkRequest × Str) → World →
      List ((SinkRequest × Str) × Except Exit SinkVerifyResponse) × World :=
  process fun request world =>
    (sink.verifyAndEffectuate request.1 (some request.2)).run World.exec world

/-- The request is allowed when it is the only one. -/
def allowsAlone (sink : NetworkFinalitySink) (world : World) (request : SinkRequest) : Bool :=
  isAllowed ((sink.verifyAndEffectuate request (some [])).run World.exec world).1

/-- The authority that a request consumes when it is the only one. -/
def consumesAlone (sink : NetworkFinalitySink) (world : World) (request : SinkRequest × Str) :
    Option Str :=
  if sink.allowsAlone world request.1 then request.1.authorityId else none

/-- The number of effects a sink's network has recorded. -/
def effectCount (sink : NetworkFinalitySink) (world : World) : Nat :=
  (world.networks sink.network).effects.keys.card

/-- Serving the requests consumes the authority. -/
def Consumes (sink : NetworkFinalitySink) (world : World) (requests : List (SinkRequest × Str))
    (authorityId : Str) : Prop :=
  world.activationStore.isUsed authorityId ≠ .ok true ∧
    (sink.serve requests world).2.activationStore.isUsed authorityId = .ok true

end NetworkFinalitySink

/-- The digits drawn for effects name effects that do not exist. -/
structure FreshDraws (sink : NetworkFinalitySink) (world : World)
    (requests : List (SinkRequest × Str)) : Prop where
  distinct : (requests.map Prod.snd).Nodup
  absent : ∀ request ∈ requests,
    world.effect sink.network (("net-effect-" : Str) ++ request.2) = none

section

variable [Hashlib] {sink : NetworkFinalitySink} {request : SinkRequest} {world now : World}

/-- The two worlds agree on what the guards of a request read. -/
structure World.AgreesFor (request : SinkRequest) (left right : World) : Prop where
  clock : left.clock = right.clock
  state : left.state = right.state
  evidenceStore : left.evidenceStore = right.evidenceStore
  activationStore : ∀ authority, request.authority = some authority →
    ActivationStore.AgreesAt authority.authorityId left.activationStore right.activationStore

omit [Hashlib] in
theorem World.AgreesFor.symm (agrees : World.AgreesFor request now world) :
    World.AgreesFor request world now where
  clock := agrees.clock.symm
  state := agrees.state.symm
  evidenceStore := agrees.evidenceStore.symm
  activationStore authority presented := (agrees.activationStore authority presented).symm

/-- A run of a sink is allowed exactly when it returns. -/
theorem isAllowed_iff {hex : Str} :
    isAllowed ((sink.verifyAndEffectuate request (some hex)).run World.exec world).1 = true ↔
      ∃ authority evidence activation,
        Permitted world sink request authority evidence activation := by
  rcases ran : (sink.verifyAndEffectuate request (some hex)).run World.exec world with
    ⟨outcome, after⟩
  constructor
  · intro allowed
    cases outcome with
    | ok response =>
        obtain ⟨authority, evidence, activation, _, permitted, -⟩ :=
          NetworkFinalitySink.verifyAndEffectuate_ok.mp ran
        exact ⟨authority, evidence, activation, permitted⟩
    | error reason =>
        have path := trace_path World.exec (sink.verifyAndEffectuate request (some hex)) world
        rw [ran] at path
        have refuses := NetworkFinalitySink.verifyAndEffectuate_leaves.reason path
        cases reason with
        | denied response =>
            have denies : response.Denies := refuses
            simp [isAllowed, verdict, SinkVerifyResponse.verdict, denies.decision] at allowed
        | raised error => cases allowed
  · rintro ⟨authority, evidence, activation, permitted⟩
    have allows := NetworkFinalitySink.verifyAndEffectuate_ok.mpr
      ⟨authority, evidence, activation, hex, permitted, rfl, rfl, rfl⟩
    obtain ⟨rfl, -⟩ := Prod.mk.inj (ran.symm.trans allows)
    rfl

/-- A permitted request is permitted wherever its guards read the same. -/
theorem Permitted.agrees {authority : NetworkFinalityAuthority} {evidence : EvidenceRecord}
    {activation : ActivationRecord}
    (permitted : Permitted world sink request authority evidence activation)
    (agrees : World.AgreesFor request now world) :
    Permitted now sink request authority evidence activation where
  toAdmitted := agrees.clock ▸ permitted.toAdmitted
  evidenceStored := agrees.evidenceStore ▸ permitted.evidenceStored
  activationStored :=
    (agrees.activationStore authority permitted.presented).get.trans permitted.activationStored
  unused := (agrees.activationStore authority permitted.presented).isUsed.trans permitted.unused
  reference := agrees.state ▸ permitted.reference
  epochs := agrees.state ▸ permitted.epochs

/-- A read that asks about no other authority than the presented one. -/
def ReadsFor (request : SinkRequest) (op : Op) : Prop :=
  op.isWrite = false ∧ ∀ id, op = .getActivation id ∨ op = .isUsed id →
    ∃ authority, request.authority = some authority ∧ authority.authorityId = id

omit [Hashlib] in
private theorem readsFor_of_state {op : Op} (read : op.isWrite = false)
    (other : ∀ id, op ≠ .getActivation id ∧ op ≠ .isUsed id) : ReadsFor request op :=
  ⟨read, fun id same => (same.elim (other id).1 (other id).2).elim⟩

omit [Hashlib] in
private theorem readsFor_of_own {authority : NetworkFinalityAuthority}
    (presented : request.authority = some authority) {op : Op} (read : op.isWrite = false)
    (own : op = .getActivation authority.authorityId ∨ op = .isUsed authority.authorityId) :
    ReadsFor request op := by
  refine ⟨read, fun id same => ⟨authority, presented, ?_⟩⟩
  rcases own with rfl | rfl <;> simpa using same

/-- The guards ask about no other authority than the presented one. -/
theorem verify_readsFor : (sink.verify request).Uses (ReadsFor request) := by
  have clock : ReadsFor request .clock := readsFor_of_state rfl (by simp)
  refine Uses.bind (uses_perform.mpr clock) fun now => ?_
  apply Uses.bind_returns NetworkFinalitySink.authenticate_uses
  rintro past ⟨authority, checks⟩ authenticated
  obtain ⟨-, -, accepted⟩ := NetworkFinalitySink.authenticate_returns.mp authenticated
  have evidence : ReadsFor request (.getEvidence authority.binding.evidenceId) :=
    readsFor_of_state rfl (by simp)
  refine Uses.bind (NetworkFinalitySink.matchEvidence_uses evidence) fun _ => ?_
  have record := readsFor_of_own accepted.presented rfl (.inl rfl)
  have flag := readsFor_of_own accepted.presented rfl (.inr rfl)
  refine Uses.bind (NetworkFinalitySink.matchActivation_uses record flag) fun _ => ?_
  have reference : ReadsFor request .protectedStateReference := readsFor_of_state rfl (by simp)
  have epochs (epoch : Epoch) : ReadsFor request (.epoch epoch) := readsFor_of_state rfl (by simp)
  refine Uses.bind NetworkFinalitySink.matchSink_uses fun _ => ?_
  refine Uses.bind (NetworkFinalitySink.matchState_uses reference epochs) fun _ => ?_
  exact Uses.bind NetworkFinalitySink.matchScope_uses fun _ => uses_done

/-- The guards end alike in worlds that agree on what they read. -/
theorem verify_agrees (agrees : World.AgreesFor request now world) :
    ((sink.verify request).run World.exec now).1 =
      ((sink.verify request).run World.exec world).1 := by
  refine (run_related World.exec (World.AgreesFor request) ?_ verify_readsFor agrees).1
  rintro op ⟨read, own⟩ left right agrees
  rw [World.exec_readOnly read left, World.exec_readOnly read right]
  refine ⟨?_, agrees⟩
  cases op with
  | getActivation id =>
      obtain ⟨authority, presented, rfl⟩ := own id (.inl rfl)
      exact (agrees.activationStore authority presented).get
  | isUsed id =>
      obtain ⟨authority, presented, rfl⟩ := own id (.inr rfl)
      exact (agrees.activationStore authority presented).isUsed
  | getEvidence id => simp only [World.exec, agrees.evidenceStore]
  | clock => exact agrees.clock
  | _ =>
      first
        | simp only [World.exec, agrees.state]; done
        | cases read

private theorem consume_agrees {authorityId : Str}
    (agrees : ActivationStore.AgreesAt authorityId now.activationStore world.activationStore) :
    (World.exec (.consume authorityId) now).1 = (World.exec (.consume authorityId) world).1 := by
  have same := agrees.consume
  rcases left : now.activationStore.consume authorityId with error | ⟨flag, store⟩ <;>
    rcases right : world.activationStore.consume authorityId with error' | ⟨flag', store'⟩ <;>
    simp_all [World.exec, Except.map]

/-- The part under the lock has one verdict in worlds that agree on the authority, whatever
digits are drawn for the effect. -/
theorem effectuate_verdict {authority : NetworkFinalityAuthority} {checks : Dict Str}
    (agrees : ActivationStore.AgreesAt authority.authorityId now.activationStore
      world.activationStore) (hex hex' : Str) :
    verdict ((sink.effectuate request (some hex) authority checks).run World.exec now).1 =
      verdict ((sink.effectuate request (some hex') authority checks).run World.exec world).1 := by
  have used : (World.exec (.isUsed authority.authorityId) now).1 =
      (World.exec (.isUsed authority.authorityId) world).1 := agrees.isUsed
  have kept (world : World) : (World.exec (.isUsed authority.authorityId) world).2 = world := rfl
  simp only [NetworkFinalitySink.effectuate, ask, perform, call_bind, done_bind, run_call]
  rw [used, kept, kept]
  rcases (World.exec (.isUsed authority.authorityId) world).1 with error | _ | _
  · rfl
  · simp only [orRaise_ok, done_bind, refuseIf, exitIf_neg (by simp : ¬ false = true), run_call]
    rw [consume_agrees agrees]
    rcases (World.exec (.consume authority.authorityId) world).1 with error | _ | _
    · rfl
    · rfl
    · rfl
  · rfl

/-- A request has one verdict in worlds that agree on what its guards read. -/
theorem verdict_agrees (agrees : World.AgreesFor request now world) (hex hex' : Str) :
    verdict ((sink.verifyAndEffectuate request (some hex)).run World.exec now).1 =
      verdict ((sink.verifyAndEffectuate request (some hex')).run World.exec world).1 := by
  have same : ((sink.verify request).run World.exec now).1 =
      ((sink.verify request).run World.exec world).1 := verify_agrees agrees
  simp only [NetworkFinalitySink.verifyAndEffectuate, run_bind]
  rcases left : (sink.verify request).run World.exec now with ⟨outcome, after⟩
  rcases right : (sink.verify request).run World.exec world with ⟨outcome', after'⟩
  rw [left, right] at same
  obtain rfl : outcome = outcome' := same
  have reads : OnlyReads (sink.verify request) := NetworkFinalitySink.verify_reads
  have readOnly (world : World) := run_readOnly World.exec
    (reads.mono fun _ => World.exec_readOnly) world
  obtain rfl : after = now := by simpa [left] using readOnly now
  obtain rfl : after' = world := by simpa [right] using readOnly world
  cases outcome with
  | error reason => rfl
  | ok verified =>
      obtain ⟨authority, checks⟩ := verified
      obtain ⟨past, returned, -⟩ := (run_ok_iff World.exec).mp left
      obtain ⟨_, _, _, admitted, -, -⟩ := NetworkFinalitySink.verify_returns.mp returned
      exact effectuate_verdict (agrees.activationStore authority admitted.presented) hex hex'

/-! ### Serving many requests -/

/-- Some authorities have been consumed since the initial world, each with one effect, and
the requests are still to be served. -/
structure Reached (sink : NetworkFinalitySink) (initial : World)
    (requests : List (SinkRequest × Str)) (taken : Finset Str) (now : World) : Prop where
  clock : now.clock = initial.clock
  state : now.state = initial.state
  evidenceStore : now.evidenceStore = initial.evidenceStore
  others : ∀ id, id ∉ taken →
    ActivationStore.AgreesAt id now.activationStore initial.activationStore
  unused : ∀ id ∈ taken, initial.activationStore.isUsed id = .ok false
  used : ∀ id ∈ taken, now.activationStore.isUsed id = .ok true
  count : sink.effectCount now = sink.effectCount initial + taken.card
  fresh : FreshDraws sink now requests

omit [Hashlib] in
theorem Reached.start {requests : List (SinkRequest × Str)}
    (fresh : FreshDraws sink world requests) : Reached sink world requests ∅ world where
  clock := rfl
  state := rfl
  evidenceStore := rfl
  others id _ := .refl id _
  unused := by simp
  used := by simp
  count := by simp
  fresh := fresh

omit [Hashlib] in
theorem FreshDraws.tail {first : SinkRequest × Str} {requests : List (SinkRequest × Str)}
    (fresh : FreshDraws sink world (first :: requests)) : FreshDraws sink world requests where
  distinct := (List.nodup_cons.mp fresh.distinct).2
  absent request member := fresh.absent request (List.mem_cons_of_mem first member)

namespace Reached

variable {initial : World} {first : SinkRequest × Str} {requests : List (SinkRequest × Str)}
  {taken : Finset Str} (here : Reached sink initial (first :: requests) taken now)

include here

omit [Hashlib] in
theorem tail : Reached sink initial requests taken now where
  __ := here
  fresh := here.fresh.tail

omit [Hashlib] in
/-- A request for an authority that is not consumed reads what it would read at first. -/
theorem agrees (free : ∀ authority, first.1.authority = some authority →
    authority.authorityId ∉ taken) : World.AgreesFor first.1 now initial where
  clock := here.clock
  state := here.state
  evidenceStore := here.evidenceStore
  activationStore authority presented := here.others _ (free authority presented)

/-- A permitted request consumes its authority and adds an effect. -/
theorem applied {authority : NetworkFinalityAuthority} {evidence : EvidenceRecord}
    {activation : ActivationRecord}
    (permitted : Permitted now sink first.1 authority evidence activation)
    (free : authority.authorityId ∉ taken) :
    Reached sink initial requests (insert authority.authorityId taken)
      (sink.applied first.1 authority first.2 now) := by
  obtain ⟨store, after, -, -, -⟩ := World.exec_consumed now permitted.consumes
  have consumed : now.activationStore.consume authority.authorityId = .ok (true, store) := by
    have answer := permitted.consumes
    rcases outcome : now.activationStore.consume authority.authorityId with error | ⟨flag, store'⟩
    · simp [World.exec, outcome] at answer
    · obtain rfl : flag = true := by simpa [World.exec, outcome] using answer
      have same : store' = store := by
        simpa [World.exec, outcome] using congrArg World.activationStore after
      rw [same]
  have written : sink.applied first.1 authority first.2 now = { now with
      activationStore := store
      networks := Function.update now.networks sink.network
        ⟨(now.networks sink.network).effects.set (("net-effect-" : Str) ++ first.2)
          (NetworkFinalitySink.effectOf first.1 authority)⟩ } := by
    rw [NetworkFinalitySink.applied, after]
    rfl
  have absent : ("net-effect-" : Str) ++ first.2 ∉ (now.networks sink.network).effects :=
    Dict.get_eq_none.mp (here.fresh.absent first (List.mem_cons_self ..))
  rw [written]
  refine ⟨here.clock, here.state, here.evidenceStore, ?_, ?_, ?_, ?_, ?_⟩
  · intro id other
    rw [Finset.mem_insert, not_or] at other
    exact (ActivationStore.consume_other consumed other.1).trans (here.others id other.2)
  · intro id member
    rcases Finset.mem_insert.mp member with rfl | before
    · rw [← (here.others _ free).isUsed]
      exact permitted.unused
    · exact here.unused id before
  · intro id member
    rcases Finset.mem_insert.mp member with rfl | before
    · exact ActivationStore.isUsed_consumed consumed
    · have different : id ≠ authority.authorityId := by
        rintro rfl
        exact free before
      rw [(ActivationStore.consume_other consumed different).isUsed]
      exact here.used id before
  · have before := here.count
    simp only [NetworkFinalitySink.effectCount, Function.update_self] at before ⊢
    rw [Dict.card_set absent, Finset.card_insert_of_notMem free, before]
    omega
  · refine ⟨here.fresh.tail.distinct, fun request member => ?_⟩
    have other : ("net-effect-" : Str) ++ request.2 ≠ ("net-effect-" : Str) ++ first.2 := by
      intro same
      have drawn := List.append_cancel_left same
      refine (List.nodup_cons.mp here.fresh.distinct).1 ?_
      rw [← drawn]
      exact List.mem_map_of_mem member
    simp only [World.effect, Function.update_self]
    rw [Dict.get_set_ne _ _ other]
    exact here.fresh.tail.absent request member

end Reached

/-- Whichever request for an authority comes first consumes it, if it is permitted at all. -/
theorem serve_takes (sink : NetworkFinalitySink) (initial : World) :
    Takes (fun (request : SinkRequest × Str) world =>
        (sink.verifyAndEffectuate request.1 (some request.2)).run World.exec world)
      isAllowed (sink.consumesAlone initial) (Reached sink initial) where
  granted := by
    intro request requests taken now key here takes free
    have alone : sink.allowsAlone initial request.1 = true := by
      by_contra refused
      simp [NetworkFinalitySink.consumesAlone, refused] at takes
    obtain ⟨authority, evidence, activation, permitted⟩ := isAllowed_iff.mp alone
    obtain rfl : authority.authorityId = key := by
      simpa [NetworkFinalitySink.consumesAlone, alone, SinkRequest.authorityId,
        permitted.presented] using takes
    have agrees : World.AgreesFor request.1 now initial := here.agrees fun other presented => by
      obtain rfl := Option.some.inj (permitted.presented.symm.trans presented)
      exact free
    have permitted := permitted.agrees agrees
    have ran := NetworkFinalitySink.verifyAndEffectuate_ok.mpr
      ⟨authority, evidence, activation, request.2, permitted, rfl, rfl, rfl⟩
    refine ⟨isAllowed_iff.mpr ⟨authority, evidence, activation, permitted⟩, ?_⟩
    rw [ran]
    exact here.applied permitted free
  refused := by
    intro request requests taken now here blocked
    have refused : isAllowed ((sink.verifyAndEffectuate request.1 (some request.2)).run World.exec
        now).1 = false := by
      rw [Bool.eq_false_iff]
      intro allowed
      obtain ⟨authority, evidence, activation, permitted⟩ := isAllowed_iff.mp allowed
      have free : authority.authorityId ∉ taken := by
        intro consumed
        cases (here.used _ consumed).symm.trans permitted.unused
      -- The request would be permitted alone, so its authority has been consumed.
      have agrees : World.AgreesFor request.1 now initial := here.agrees fun other presented => by
        obtain rfl := Option.some.inj (permitted.presented.symm.trans presented)
        exact free
      have alone : sink.allowsAlone initial request.1 = true := isAllowed_iff.mpr
        ⟨authority, evidence, activation, permitted.agrees agrees.symm⟩
      refine free (blocked _ ?_)
      simp [NetworkFinalitySink.consumesAlone, alone, SinkRequest.authorityId, permitted.presented]
    refine ⟨refused, ?_⟩
    rcases ran : (sink.verifyAndEffectuate request.1 (some request.2)).run World.exec now with
      ⟨outcome, after⟩
    have atomic := verifyAndEffectuate_atomic sink request.1 (some request.2) now
      (fun hex drawn => by
        obtain rfl := Option.some.inj drawn
        exact here.fresh.absent request (List.mem_cons_self ..))
    rw [ran] at atomic refused
    cases atomic with
    | effectuated allows changed =>
        simp [isAllowed, verdict, SinkVerifyResponse.verdict, allows.decision] at refused
    | denied denies => exact here.tail
    | raised error => exact here.tail

/-- No other request names the authority of this one. -/
def NamedOnce (requests : List (SinkRequest × Str)) (request : SinkRequest) : Prop :=
  ∀ id, request.authorityId = some id →
    (requests.map Prod.fst).countP (fun other => other.authorityId = some id) = 1

section

variable {requests : List (SinkRequest × Str)} (fresh : FreshDraws sink world requests)

theorem consumesAlone_iff {entry : SinkRequest × Str} {id : Str} :
    sink.consumesAlone world entry = some id ↔
      entry.1.authorityId = some id ∧ sink.allowsAlone world entry.1 = true := by
  cases alone : sink.allowsAlone world entry.1 <;>
    simp [NetworkFinalitySink.consumesAlone, alone]

include fresh

theorem reached_served :
    Reached sink world [] (Takes.keys (sink.consumesAlone world) requests)
      (sink.serve requests world).2 := by
  have final := (serve_takes sink world).reached_process (.start fresh)
  rwa [Finset.empty_union] at final

/-- The consumed authorities are those that some request would consume alone. -/
theorem consumes_iff {id : Str} : sink.Consumes world requests id ↔
    ∃ request ∈ requests, request.1.authorityId = some id ∧
      sink.allowsAlone world request.1 = true := by
  have final := reached_served fresh
  simp only [← consumesAlone_iff]
  rw [← Takes.mem_keys]
  constructor
  · rintro ⟨unused, used⟩
    by_contra other
    rw [(final.others id other).isUsed] at used
    exact unused used
  · intro taken
    refine ⟨?_, final.used id taken⟩
    rw [final.unused id taken]
    simp

/-- One request for each consumed authority is allowed. -/
theorem countP_allowed {id : Str} (consumed : sink.Consumes world requests id) :
    (sink.serve requests world).1.countP (fun entry =>
      entry.1.1.authorityId = some id ∧ isAllowed entry.2 = true) = 1 := by
  obtain ⟨claimant, member, claims⟩ := (consumes_iff fresh).mp consumed
  have wanted : id ∈ Takes.keys (sink.consumesAlone world) requests :=
    Takes.mem_keys.mpr ⟨claimant, member, consumesAlone_iff.mpr claims⟩
  rw [← (serve_takes sink world).count_accepted (.start fresh) (Finset.notMem_empty id) wanted]
  refine List.countP_congr fun entry answered => ?_
  simp only [decide_eq_true_eq, consumesAlone_iff]
  constructor
  · rintro ⟨named, allowed⟩
    obtain ⟨key, takes⟩ :=
      (serve_takes sink world).takes_of_accepted (.start fresh) answered allowed
    exact ⟨⟨named, (consumesAlone_iff.mp takes).2⟩, allowed⟩
  · rintro ⟨⟨named, -⟩, allowed⟩
    exact ⟨named, allowed⟩

/-- A request whose authority no other request names has the verdict it would have alone. -/
theorem verdict_alone {hex : Str} {outcome : Except Exit SinkVerifyResponse}
    (once : NamedOnce requests request)
    (answered : ((request, hex), outcome) ∈ (sink.serve requests world).1) :
    verdict outcome =
      verdict ((sink.verifyAndEffectuate request (some [])).run World.exec world).1 := by
  obtain ⟨before, after, later, rfl, there, rfl⟩ :=
    (serve_takes sink world).outcome_reached (.start fresh) answered
  rw [Finset.empty_union] at there
  refine verdict_agrees
    (there.agrees fun authority (presented : request.authority = some authority) taken => ?_) hex []
  obtain ⟨other, earlier, takes⟩ := Takes.mem_keys.mp taken
  have named : request.authorityId = some authority.authorityId := by
    simp [SinkRequest.authorityId, presented]
  have both := once authority.authorityId named
  -- The request itself and an earlier one would name the authority.
  rw [List.map_append, List.countP_append, List.map_cons,
    List.countP_cons_of_pos (by simpa using named)] at both
  have positive : 0 < (before.map Prod.fst).countP
      (fun other => other.authorityId = some authority.authorityId) :=
    List.countP_pos_iff.mpr ⟨other.1, List.mem_map_of_mem earlier,
      by simpa using (consumesAlone_iff.mp takes).1⟩
  omega

end

/-- Two orders of the same requests consume the same authorities with the same number of
effects: those authorities that some request would consume alone, each by one request. A
request whose authority no other request names has the same verdict in both. -/
theorem serve_order_independent {first second : List (SinkRequest × Str)}
    (reordered : (first.map Prod.fst).Perm (second.map Prod.fst))
    (fresh : FreshDraws sink world first) (fresh' : FreshDraws sink world second) :
    (∀ id, sink.Consumes world first id ↔ sink.Consumes world second id) ∧
      sink.effectCount (sink.serve first world).2 = sink.effectCount (sink.serve second world).2 ∧
      (∀ id, sink.Consumes world first id ↔ ∃ request ∈ first,
        request.1.authorityId = some id ∧ sink.allowsAlone world request.1 = true) ∧
      (∀ id, sink.Consumes world first id →
        (sink.serve first world).1.countP (fun entry =>
          entry.1.1.authorityId = some id ∧ isAllowed entry.2 = true) = 1) ∧
      ∀ request hex hex' outcome outcome', NamedOnce first request →
        ((request, hex), outcome) ∈ (sink.serve first world).1 →
        ((request, hex'), outcome') ∈ (sink.serve second world).1 →
        verdict outcome = verdict outcome' := by
  have sameKeys : Takes.keys (sink.consumesAlone world) first =
      Takes.keys (sink.consumesAlone world) second := by
    ext id
    have named (requests : List (SinkRequest × Str)) :
        id ∈ Takes.keys (sink.consumesAlone world) requests ↔
          ∃ request ∈ requests.map Prod.fst, request.authorityId = some id ∧
            sink.allowsAlone world request = true := by
      simp only [Takes.mem_keys, consumesAlone_iff, List.mem_map]
      constructor
      · rintro ⟨entry, member, claims⟩
        exact ⟨entry.1, ⟨entry, member, rfl⟩, claims⟩
      · rintro ⟨-, ⟨entry, member, rfl⟩, claims⟩
        exact ⟨entry, member, claims⟩
    simp only [named, reordered.mem_iff]
  refine ⟨fun id => ?_, ?_, fun id => consumes_iff fresh, fun id => countP_allowed fresh, ?_⟩
  · simp only [consumes_iff fresh, consumes_iff fresh', ← consumesAlone_iff, ← Takes.mem_keys,
      sameKeys]
  · rw [(reached_served fresh).count, (reached_served fresh').count, sameKeys]
  · intro request hex hex' outcome outcome' once answered answered'
    have once' : NamedOnce second request := fun id named => by
      rw [← reordered.countP_eq]
      exact once id named
    rw [verdict_alone fresh once answered, verdict_alone fresh' once' answered']

end

namespace Reference

/-- The reference request twice, which draws other digits in the other order. -/
def twice (first second : Str) : List (SinkRequest × Str) := [(request, first), (request, second)]

theorem twice_fresh {first second : Str} (different : first ≠ second) :
    FreshDraws start.sink issuedWorld (twice first second) where
  distinct := by simp [twice, different]
  absent := by
    have fresh : start.world.Fresh := buildReferenceSystem_fresh _ _
    have networks : issuedWorld.networks = start.world.networks := by
      rw [issuedWorld, issued]
      exact @validateAndIssue_networks .checksum _ _ _ _
    intro request member
    rw [World.effect, networks]
    exact fresh.effects _ _

/-- Either of two requests for the reference authority is allowed alone, and one of them
is, in either order. -/
theorem serve_order_independent_twice :
    @NetworkFinalitySink.Consumes .checksum start.sink issuedWorld (twice "1" "2")
        authority.authorityId ∧
      @NetworkFinalitySink.Consumes .checksum start.sink issuedWorld (twice "3" "4")
        authority.authorityId ∧
      (@NetworkFinalitySink.serve .checksum start.sink (twice "1" "2") issuedWorld).1.countP
        (fun entry => entry.1.1.authorityId = some authority.authorityId ∧
          isAllowed entry.2 = true) = 1 := by
  obtain ⟨same, -, alone, once, -⟩ := @serve_order_independent .checksum start.sink issuedWorld
    (twice "1" "2") (twice "3" "4") (.refl _) (twice_fresh (by decide)) (twice_fresh (by decide))
  have allowed : @NetworkFinalitySink.allowsAlone .checksum start.sink issuedWorld request = true := by
    obtain ⟨response, ran⟩ := effectuated_response
    rw [effectuated] at ran
    obtain ⟨authority, evidence, activation, -, permitted, -⟩ :=
      (@NetworkFinalitySink.verifyAndEffectuate_ok _ _ _ _ .checksum _ _).mp ran
    exact (@isAllowed_iff .checksum _ _ _ _).mpr ⟨authority, evidence, activation, permitted⟩
  have consumed := (alone authority.authorityId).mpr ⟨(request, "1"), by simp [twice], rfl, allowed⟩
  exact ⟨consumed, (same _).mp consumed, once _ consumed⟩

end Reference
end NetworkFinality
