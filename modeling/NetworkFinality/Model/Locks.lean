import NetworkFinality.Semantics.LockedPool
import NetworkFinality.Model.System

/-!
# Calls under their locks

Every store and registry has a lock of its own, which each of its methods takes for as
long as it works. A sink takes its lock and then that of its network around the part
that consumes the authority and applies the effect. The readers of the SQLite stores
take no lock.
-/

namespace NetworkFinality

open Python Semantics Procedure

/-- The locks of the objects that calls share. A sink is named by its place among the
objects of the process: two sinks may agree in every field and still have two locks. -/
inductive Lock where
  | sink (sink : Nat)
  | network (network : Nat)
  | nonceRegistry
  | evidenceStore
  | activationStore
deriving DecidableEq

/-- In which order locks are taken. -/
def Lock.rank : Lock → Nat
  | .sink _ => 0
  | .network _ => 1
  | .nonceRegistry | .evidenceStore | .activationStore => 2

/-- Which of the stores keep their records in memory. -/
structure Backends where
  evidenceInMemory : Bool
  activationInMemory : Bool

/-- The lock an operation takes for itself. -/
def Op.lock (backends : Backends) : Op → Option Lock
  | .reserve _ => some .nonceRegistry
  | .commitEvidence _ => some .evidenceStore
  | .getEvidence _ => if backends.evidenceInMemory then some .evidenceStore else none
  | .putActivation _ | .consume _ | .unconsume _ => some .activationStore
  | .getActivation _ | .isUsed _ =>
      if backends.activationInMemory then some .activationStore else none
  | _ => none

theorem Op.rank_lock {backends : Backends} {op : Op} {lock : Lock}
    (owns : lock ∈ op.lock backends) : lock.rank = 2 := by
  cases op <;> simp only [Op.lock, Option.mem_def] at owns
  all_goals first
    | cases owns; done
    | (cases owns; rfl)
    | (split at owns <;> cases owns; rfl)

/-- A call, and the sink object that runs it. -/
structure Invocation where
  sink : Nat
  call : Call

/-- A program over the operations and the locks. -/
abbrev LockedProgram := Procedure (system.locked Lock) Exit

section

variable [Hashlib] (backends : Backends)

/-- The statement `with self._lock, self.network.lock:` of a sink. -/
def NetworkFinalitySink.lockedEffectuate (lock : Nat) (sink : NetworkFinalitySink)
    (request : SinkRequest) (draw : Option Str) (authority : NetworkFinalityAuthority)
    (checks : Dict Str) : LockedProgram SinkVerifyResponse :=
  withLock (.sink lock) (withLock (.network sink.network)
    ((sink.effectuate request draw authority checks).guardEach (Op.lock backends)))

/-- What a call performs, locks included. -/
def Invocation.program : (invocation : Invocation) → LockedProgram invocation.call.Result
  | ⟨_, .validateAndIssue ped draws candidate⟩ =>
      (ped.validateAndIssue draws candidate).guardEach (Op.lock backends)
  | ⟨lock, .verifyAndEffectuate sink request draw⟩ =>
      (sink.verify request).guardEach (Op.lock backends) >>= fun (authority, checks) =>
        sink.lockedEffectuate backends lock request draw authority checks

/-- Without its locks a call is what `Call.program` says. -/
theorem Invocation.unlocked_program (invocation : Invocation) :
    (invocation.program backends).unlocked = invocation.call.program := by
  obtain ⟨lock, call⟩ := invocation
  cases call with
  | validateAndIssue ped draws candidate => exact unlocked_guardEach _ _
  | verifyAndEffectuate sink request draw =>
      simp only [Invocation.program, NetworkFinalitySink.lockedEffectuate, unlocked_bind,
        unlocked_guardEach, unlocked_withLock]
      rfl

/-- Every call takes its locks in the order of their rank, and gives all of them back. -/
theorem Invocation.ordered_program (invocation : Invocation) :
    (invocation.program backends).Ordered Lock.rank [] [] := by
  obtain ⟨lock, call⟩ := invocation
  cases call with
  | validateAndIssue ped draws candidate => exact ordered_guardEach _ (by simp)
  | verifyAndEffectuate sink request draw =>
      refine (ordered_guardEach _ (by simp)).bind fun (authority, checks) => ?_
      refine .withLock (by simp) (.withLock (by simp [Lock.rank]) (ordered_guardEach _ ?_))
      intro op own owns other held
      rw [Op.rank_lock owns]
      simp only [List.mem_cons, List.not_mem_nil, or_false] at held
      rcases held with rfl | rfl <;> simp [Lock.rank]

end

end NetworkFinality
