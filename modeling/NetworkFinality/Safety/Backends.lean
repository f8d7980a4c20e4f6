import NetworkFinality.Model.Engine
import NetworkFinality.Refinement.TwinCalls

/-!
# The persistence backend

The reference system with in-memory stores and the one with empty SQLite stores are fed
one sequence of inputs. As long as each counter that evidence is given fits into 64
bits, every step is observed alike: the answers, the recorded effects and the used
authorities. A counter that does not fit makes SQLite raise where the in-memory system
issues an authority.
-/

namespace NetworkFinality

open Python Semantics Procedure

/-- What a system is fed: changes of the clock and the protected state, and calls with
their random draws. -/
inductive Input where
  | change (clock : DateTime) (state : ProtectedNetworkState)
  | validateAndIssue (draws : IssueDraws) (candidate : NetworkCandidateAct)
  | verifyAndEffectuate (request : SinkRequest) (draw : Option Str)

namespace Input

/-- The draws of an input that asks for an authority. -/
def draws : Input → Option IssueDraws
  | .validateAndIssue draws _ => some draws
  | _ => none

end Input

/-- How a system answers an input. -/
inductive Answer where
  | changed
  | decided (outcome : Except Exit PEDResult)
  | answered (outcome : Except Exit SinkVerifyResponse)

/-- What is observed of a step: its answer, the effects and the used authorities. -/
structure Observation where
  answer : Answer
  networks : Nat → DemoNetwork
  usedAuthorities : Set Str

/-- The authorities that count as used. -/
def World.usedAuthorities (world : World) : Set Str :=
  {authorityId | world.activationStore.isUsed authorityId = .ok true}

namespace ReferenceSystem

variable [Hashlib]

/-- The answer to an input, and the world it leaves. -/
def answer (system : ReferenceSystem) : Input → Answer × World
  | .change clock state => (.changed, { system.world with clock := clock, state := state })
  | .validateAndIssue draws candidate =>
      let (outcome, world) := (system.ped.validateAndIssue draws candidate).run World.exec system.world
      (.decided outcome, world)
  | .verifyAndEffectuate request draw =>
      let (outcome, world) :=
        (system.sink.verifyAndEffectuate request draw).run World.exec system.world
      (.answered outcome, world)

/-- The system after an input. -/
def feed (system : ReferenceSystem) (input : Input) : ReferenceSystem :=
  { system with world := (system.answer input).2 }

/-- The observations of a sequence of inputs, step by step. -/
def observe (system : ReferenceSystem) : List Input → List Observation
  | [] => []
  | input :: inputs =>
      let after := system.feed input
      ⟨(system.answer input).1, after.world.networks, after.world.usedAuthorities⟩ ::
        after.observe inputs

/-- Whenever an authority is asked for, the next counter fits into 64 bits. -/
def CountersFit (system : ReferenceSystem) : List Input → Prop
  | [] => True
  | input :: inputs =>
      (input.draws.isSome → system.world.state.monotonicCounter + 1 < 2 ^ 63) ∧
        (system.feed input).CountersFit inputs

end ReferenceSystem

/-- The identifiers under which evidence is committed. -/
def evidenceIds (inputs : List Input) : List Str :=
  (inputs.filterMap Input.draws).map IssueDraws.evidenceId

/-- The identifiers of the authorities. -/
def authorityIds (inputs : List Input) : List Str :=
  (inputs.filterMap Input.draws).map IssueDraws.authorityId

/-- The generated identifiers are pairwise distinct. -/
structure DistinctIds (inputs : List Input) : Prop where
  evidence : (evidenceIds inputs).Nodup
  authority : (authorityIds inputs).Nodup

section

variable {input : Input} {inputs : List Input} {left right : ReferenceSystem}

theorem DistinctIds.tail (distinct : DistinctIds (input :: inputs)) : DistinctIds inputs := by
  obtain ⟨evidence, authority⟩ := distinct
  cases input with
  | validateAndIssue draws candidate => exact ⟨evidence.of_cons, authority.of_cons⟩
  | change clock state => exact ⟨evidence, authority⟩
  | verifyAndEffectuate request draw => exact ⟨evidence, authority⟩

/-- Worlds with one table have used the same authorities. -/
theorem World.SameTables.usedAuthorities {evidenceIds authorityIds : List Str} {left right : World}
    (same : World.SameTables evidenceIds authorityIds left right) :
    left.usedAuthorities = right.usedAuthorities := by
  have tables : left.activationStore.table = right.activationStore.table := same.activations
  ext authorityId
  have flag (store : ActivationStore) :
      store.isUsed authorityId = .ok true ↔ store.table.Used authorityId := by
    constructor
    · exact fun read => (ActivationStore.isUsed_ok read).mp rfl
    · rintro ⟨record, present, used⟩
      rw [ActivationStore.isUsed_some present, used]
  show left.activationStore.isUsed authorityId = .ok true ↔
    right.activationStore.isUsed authorityId = .ok true
  rw [flag, flag, tables]

variable [Hashlib]

/-- The systems differ at most in the classes of their stores, before some inputs. -/
structure ReferenceSystem.Alike (inputs : List Input) (left right : ReferenceSystem) : Prop where
  ped : left.ped = right.ped
  sink : left.sink = right.sink
  tables : World.SameTables (evidenceIds inputs) (authorityIds inputs) left.world right.world

/-- One input is answered alike, and leaves systems that are alike. -/
theorem ReferenceSystem.Alike.answer (alike : Alike (input :: inputs) left right)
    (distinct : DistinctIds (input :: inputs)) (fits : left.CountersFit (input :: inputs)) :
    (left.answer input).1 = (right.answer input).1 ∧
      Alike inputs (left.feed input) (right.feed input) := by
  obtain ⟨ped, sink, same⟩ := alike
  cases input with
  | change clock state =>
      exact ⟨rfl, ped, sink, { same with clock := rfl, state := rfl }⟩
  | validateAndIssue draws candidate =>
      have ends := validateAndIssue_alike left.ped candidate same
        (List.nodup_cons.mp distinct.evidence).1 (List.nodup_cons.mp distinct.authority).1
        (fits.1 rfl)
      refine ⟨?_, ped, sink, ?_⟩
      · simp only [ReferenceSystem.answer, ← ped]
        rw [ends.outcome]
      · simp only [feed, ReferenceSystem.answer, ← ped]
        exact ends.states
  | verifyAndEffectuate request draw =>
      have ends := verifyAndEffectuate_alike left.sink request draw same
      refine ⟨?_, ped, sink, ?_⟩
      · simp only [ReferenceSystem.answer, ← sink]
        rw [ends.outcome]
      · simp only [feed, ReferenceSystem.answer, ← sink]
        exact ends.states

/-- Systems that are alike are observed alike. -/
theorem ReferenceSystem.Alike.observe (alike : Alike inputs left right)
    (distinct : DistinctIds inputs) (fits : left.CountersFit inputs) :
    left.observe inputs = right.observe inputs := by
  induction inputs generalizing left right with
  | nil => rfl
  | cons input inputs inductionHypothesis =>
      obtain ⟨answer, after⟩ := alike.answer distinct fits
      have networks := after.tables.networks
      have used := after.tables.usedAuthorities
      rw [ReferenceSystem.observe, ReferenceSystem.observe, answer, networks, used,
        inductionHypothesis after distinct.tail fits.2]

omit [Hashlib] in
/-- New systems are alike, whichever stores they have. -/
theorem ReferenceSystem.alike_start (arguments : SystemArguments) (clock : DateTime)
    (inputs : List Input) :
    Alike inputs (buildReferenceSystem arguments .memory clock)
      (buildReferenceSystem arguments (.sqlite .empty .empty) clock) where
  ped := rfl
  sink := rfl
  tables := {
    clock := rfl
    state := rfl
    nonceRegistry := rfl
    networks := rfl
    evidence := rfl
    tail := rfl
    activations := rfl
    newEvidence := fun _ _ => rfl
    newAuthority := fun _ _ => rfl }

/-- The two backends are observed alike, as long as the counters fit into 64 bits. -/
theorem observe_backends (arguments : SystemArguments) (clock : DateTime) (inputs : List Input)
    (distinct : DistinctIds inputs)
    (fits : (buildReferenceSystem arguments .memory clock).CountersFit inputs) :
    (buildReferenceSystem arguments .memory clock).observe inputs =
      (buildReferenceSystem arguments (.sqlite .empty .empty) clock).observe inputs :=
  (ReferenceSystem.alike_start arguments clock inputs).observe distinct fits

end

/-! ### The counter that SQLite refuses -/

namespace Reference

/-- The largest integer of SQLite. -/
def largest : Int := 2 ^ 63 - 1

/-- The candidate is presented at the largest counter. -/
def lastInputs : List Input :=
  [.change clock { start.world.state with monotonicCounter := largest },
    .validateAndIssue draws candidate]

/-- The authority an answer carries. -/
def Answer.authority : Answer → Option NetworkFinalityAuthority
  | .decided outcome => authorityOf outcome
  | _ => none

/-- The authorities that the last inputs are answered with. -/
def lastAuthorities (persistence : Persistence) : List (Option NetworkFinalityAuthority) :=
  (@ReferenceSystem.observe .checksum (buildReferenceSystem arguments persistence clock) lastInputs).map
    fun observation => Answer.authority observation.answer

/-- The in-memory system issues an authority there, and the other one does not. -/
theorem lastAuthorities_differ :
    (lastAuthorities .memory).map Option.isSome = [false, true] ∧
      (lastAuthorities (.sqlite .empty .empty)).map Option.isSome = [false, false] := by
  decide +kernel

/-- So the backends are told apart by inputs with distinct draws. -/
theorem backends_differ :
    ¬ ∀ (arguments : SystemArguments) (clock : DateTime) (inputs : List Input),
      DistinctIds inputs →
        @ReferenceSystem.observe .checksum (buildReferenceSystem arguments .memory clock) inputs =
          @ReferenceSystem.observe .checksum
            (buildReferenceSystem arguments (.sqlite .empty .empty) clock) inputs := by
  intro backends
  have same := backends arguments clock lastInputs ⟨by decide, by decide⟩
  have equal : lastAuthorities .memory = lastAuthorities (.sqlite .empty .empty) :=
    congrArg (List.map _) same
  obtain ⟨issued, refused⟩ := lastAuthorities_differ
  rw [equal] at issued
  cases issued.symm.trans refused

/-- The request is replayed after the candidate was issued its authority. -/
def replayInputs : List Input :=
  [.validateAndIssue draws candidate, .verifyAndEffectuate request (some "0000000001"),
    .verifyAndEffectuate request (some "0000000002")]

theorem observe_backends_replay :
    @ReferenceSystem.observe .checksum (buildReferenceSystem arguments .memory clock) replayInputs =
      @ReferenceSystem.observe .checksum
        (buildReferenceSystem arguments (.sqlite .empty .empty) clock) replayInputs := by
  refine @observe_backends .checksum arguments clock replayInputs ⟨by decide, by decide⟩ ?_
  refine ⟨fun _ => ?_, nofun, nofun, trivial⟩
  decide

end Reference

end NetworkFinality
