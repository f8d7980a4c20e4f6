import NetworkFinality.Semantics.Procedure
import NetworkFinality.Model.Authority
import NetworkFinality.Model.Evidence

/-!
# The shared world and its atomic operations

`World` is what every call works on: the clock, the protected state, the nonce
registry, the two stores and the networks that record effects. `Op` lists the
operations a call may perform on it: one attribute read, or one method of a store
or registry, whose own lock makes it atomic. An operation that raises answers with
the exception and changes nothing.

The locks of the sinks are not modelled. They only rule out interleavings, so what
holds without them holds with them.
-/

namespace NetworkFinality

open Python Semantics

/-! ### The network -/

/-- The dict a sink hands to `apply`. -/
structure NetworkEffect where
  candidateActId : Str
  authorityId : Str
  effectType : Str
  resourceType : Str
  resourceIds : List Str
  parameters : List (Str × Value)
  durationSeconds : Option Nat

structure DemoNetwork where
  effects : Dict NetworkEffect

/-- Record the effect under the drawn identifier. Without a draw the network raises an
`Exception` before it records anything. What is no `Exception`, an interrupt or an exit of
the interpreter, is not among the answers. -/
def DemoNetwork.apply (network : DemoNetwork) (effect : NetworkEffect) :
    Option Str → Except PyError (Str × DemoNetwork)
  | none => .error .networkError
  | some hex =>
      let effectId := ("net-effect-" : Str) ++ hex
      .ok (effectId, ⟨network.effects.set effectId effect⟩)

/-! ### The world -/

structure World where
  clock : DateTime
  state : ProtectedNetworkState
  nonceRegistry : NonceRegistry
  evidenceStore : EvidenceStore
  activationStore : ActivationStore
  networks : Nat → DemoNetwork

inductive Op where
  | clock
  | epoch (epoch : Epoch)
  | protectedStateReference
  | monotonicCounter
  | allowed (list : Allowlist)
  | requireAttestation
  | advanceCounter
  | reserve (nonce : Str)
  | commitEvidence (fields : EvidenceFields)
  | getEvidence (evidenceId : Str)
  | putActivation (record : ActivationRecord)
  | getActivation (authorityId : Str)
  | isUsed (authorityId : Str)
  | consume (authorityId : Str)
  | unconsume (authorityId : Str)
  | apply (network : Nat) (effect : NetworkEffect) (draw : Option Str)

/-- What each operation answers with. -/
@[reducible] def Op.Answer : Op → Type
  | .clock => DateTime
  | .epoch _ => Int
  | .protectedStateReference => Str
  | .monotonicCounter => Int
  | .allowed _ => Finset Str
  | .requireAttestation => Bool
  | .advanceCounter => Int
  | .reserve _ => Bool
  | .commitEvidence _ => Except PyError EvidenceRecord
  | .getEvidence _ => Except PyError (Option EvidenceRecord)
  | .putActivation _ => Except PyError Unit
  | .getActivation _ => Except PyError (Option ActivationRecord)
  | .isUsed _ => Except PyError Bool
  | .consume _ => Except PyError Bool
  | .unconsume _ => Except PyError Unit
  | .apply .. => Except PyError Str

/-- The operation may change the world. -/
def Op.isWrite : Op → Bool
  | .advanceCounter | .reserve _ | .commitEvidence _ | .putActivation _ | .consume _
  | .unconsume _ | .apply .. => true
  | _ => false

/-- The operation reads the clock or a part of the protected state that no call sets. -/
def Op.observesState : Op → Bool
  | .clock | .epoch _ | .protectedStateReference | .allowed _ | .requireAttestation => true
  | _ => false

/-- The operation reads the clock or a part of the protected state. -/
def Op.readsState : Op → Bool
  | .monotonicCounter => true
  | op => op.observesState

theorem Op.isWrite_of_readsState {op : Op} (reads : op.readsState = true) : op.isWrite = false := by
  cases op <;> first | rfl | cases reads

/-- The operations as an interface for procedures. -/
@[reducible] def system : Interface := ⟨Op, Op.Answer⟩

/-- Perform one operation. -/
def World.exec [Hashlib] : Handler system World
  | .clock, world => (world.clock, world)
  | .epoch epoch, world => (world.state.epoch epoch, world)
  | .protectedStateReference, world => (world.state.protectedStateReference, world)
  | .monotonicCounter, world => (world.state.monotonicCounter, world)
  | .allowed list, world => (world.state.allowed list, world)
  | .requireAttestation, world => (world.state.requireAttestation, world)
  | .advanceCounter, world =>
      let (counter, state) := world.state.advanceCounter
      (counter, { world with state := state })
  | .reserve nonce, world =>
      let (fresh, registry) := world.nonceRegistry.reserve nonce
      (fresh, { world with nonceRegistry := registry })
  | .commitEvidence fields, world =>
      match world.evidenceStore.commit fields with
      | .ok (record, store) => (.ok record, { world with evidenceStore := store })
      | .error error => (.error error, world)
  | .getEvidence evidenceId, world => (world.evidenceStore.get evidenceId, world)
  | .putActivation record, world =>
      match world.activationStore.put record with
      | .ok store => (.ok (), { world with activationStore := store })
      | .error error => (.error error, world)
  | .getActivation authorityId, world => (world.activationStore.get authorityId, world)
  | .isUsed authorityId, world => (world.activationStore.isUsed authorityId, world)
  | .consume authorityId, world =>
      match world.activationStore.consume authorityId with
      | .ok (consumed, store) => (.ok consumed, { world with activationStore := store })
      | .error error => (.error error, world)
  | .unconsume authorityId, world =>
      match world.activationStore.unconsume authorityId with
      | .ok store => (.ok (), { world with activationStore := store })
      | .error error => (.error error, world)
  | .apply network effect draw, world =>
      match (world.networks network).apply effect draw with
      | .ok (effectId, applied) =>
          (.ok effectId, { world with networks := Function.update world.networks network applied })
      | .error error => (.error error, world)

theorem World.exec_readOnly [Hashlib] {op : Op} (read : op.isWrite = false) :
    Procedure.ReadOnly World.exec op := by
  intro world
  cases op <;> first | rfl | cases read

/-- The events that may have changed the world. -/
def writes (past : List (Event system)) : List (Event system) :=
  past.filter fun event => event.op.isWrite

@[simp] theorem writes_append (first second : List (Event system)) :
    writes (first ++ second) = writes first ++ writes second := List.filter_append ..

@[simp] theorem writes_nil : writes [] = [] := rfl

theorem writes_cons (event : Event system) (past : List (Event system)) :
    writes (event :: past) = if event.op.isWrite then event :: writes past else writes past :=
  List.filter_cons

theorem writes_eq_nil {past : List (Event system)} :
    writes past = [] ↔ ∀ event ∈ past, event.op.isWrite = false := by
  simp [writes]

theorem mem_writes {past : List (Event system)} {event : Event system} :
    event ∈ writes past ↔ event ∈ past ∧ event.op.isWrite = true := by
  simp [writes]

/-- What a run does to the world, its writes do alone. -/
theorem answered_writes [Hashlib] {world final : World} {past : List (Event system)}
    (answered : Procedure.Answered World.exec world past final) :
    Procedure.Answered World.exec world (writes past) final := by
  induction past generalizing world with
  | nil => exact answered
  | cons event past inductionHypothesis =>
      obtain ⟨head, tail⟩ := answered
      rw [writes_cons]
      cases write : event.op.isWrite with
      | true => exact ⟨head, inductionHypothesis tail⟩
      | false =>
          rw [World.exec_readOnly write world] at tail
          exact inductionHypothesis tail

/-! ### Programs -/

/-- How a call ends before its last statement: with a response, or by raising. -/
inductive Exit where
  | denied (response : SinkVerifyResponse)
  | raised (error : PyError)

abbrev Program := Procedure system Exit

/-- Perform one operation. -/
abbrev ask {ε : Type} (op : Op) : Procedure system ε op.Answer :=
  Procedure.perform (I := system) op

/-- Every operation of the program is a read. -/
abbrev OnlyReads {ε α : Type} (program : Procedure system ε α) : Prop :=
  program.Uses fun op : Op => op.isWrite = false

theorem reads_ask {ε : Type} {op : Op} (read : op.isWrite = false) :
    OnlyReads (ask op : Procedure system ε op.Answer) :=
  Procedure.uses_perform.mpr read

/-- Every operation of the program reads the clock or the protected state. -/
abbrev OnlyState {ε α : Type} (program : Procedure system ε α) : Prop :=
  program.Uses fun op : Op => op.readsState = true

theorem OnlyState.reads {ε α : Type} {program : Procedure system ε α} (state : OnlyState program) :
    OnlyReads program := state.mono fun _ => Op.isWrite_of_readsState

theorem state_ask {ε : Type} {op : Op} (reads : op.readsState = true) :
    OnlyState (ask op : Procedure system ε op.Answer) :=
  Procedure.uses_perform.mpr reads

theorem returns_ask {ε : Type} {op : Op} {answer : op.Answer} {past : List (Event system)} :
    (ask op : Procedure system ε op.Answer).Returns past answer ↔ past = [⟨op, answer⟩] :=
  Procedure.returns_perform (I := system)

/-- A run continues after a read with the world's answer, in the same world. -/
theorem run_ask_bind_ok [Hashlib] {ε β : Type} {op : Op} {rest : op.Answer → Procedure system ε β}
    {world after : World} {result : β} (read : op.isWrite = false) :
    (ask op >>= rest).run World.exec world = (.ok result, after) ↔
      (rest (World.exec op world).1).run World.exec world = (.ok result, after) := by
  rw [ask, Procedure.perform, Procedure.call_bind, Procedure.run_call,
    World.exec_readOnly read world, Procedure.done_bind]

/-- Continue with a result, or raise its exception. -/
def orRaise {α : Type} (outcome : Except PyError α) : Program α :=
  .ofExcept (outcome.mapError .raised)

@[simp] theorem orRaise_ok {α : Type} (value : α) : orRaise (.ok value) = .done value := rfl

@[simp] theorem orRaise_error {α : Type} (error : PyError) :
    (orRaise (.error error) : Program α) = .exit (.raised error) := rfl

@[simp] theorem returns_orRaise {α : Type} {outcome : Except PyError α} {value : α}
    {past : List (Event system)} :
    (orRaise outcome).Returns past value ↔ outcome = .ok value ∧ past = [] := by
  cases outcome <;> simp [orRaise, Except.mapError]

@[simp 1100] theorem returns_orRaise_bind {α β : Type} {outcome : Except PyError α}
    {rest : α → Program β} {result : β} {past : List (Event system)} :
    (orRaise outcome >>= rest).Returns past result ↔
      ∃ value, outcome = .ok value ∧ (rest value).Returns past result := by
  cases outcome <;> simp

@[simp] theorem uses_orRaise {α : Type} {outcome : Except PyError α} {permitted : Op → Prop} :
    (orRaise outcome : Program α).Uses permitted :=
  Procedure.uses_ofExcept

theorem leaves_orRaise {α : Type} {outcome : Except PyError α} {permitted : Exit → Prop}
    (raised : ∀ error, permitted (.raised error)) :
    (orRaise outcome : Program α).Leaves permitted := by
  cases outcome with
  | error error => exact .exit (raised error)
  | ok value => exact .done value

end NetworkFinality
