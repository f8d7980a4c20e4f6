import NetworkFinality.Semantics.Timeline
import NetworkFinality.Model.Engine

/-!
# Processes on one state directory

A process builds the reference system, runs calls in any interleaving, and may be
stopped anywhere. The next process on the same directory finds the contents of the
SQLite stores. Everything else it builds anew.
-/

namespace NetworkFinality

open Python Semantics

/-- From which world a process starts: on empty stores, or on the files that the process
before has left. -/
inductive Boots : Option World → World → Prop where
  | first {persistence : Persistence} (arguments : SystemArguments) (clock : DateTime)
      (empty : persistence = .memory ∨ persistence = .sqlite .empty .empty) :
      Boots none (buildReferenceSystem arguments persistence clock).world
  | again {last : World} {evidence : SQLiteEvidenceStore} {activations : SQLiteActivationStore}
      (arguments : SystemArguments) (clock : DateTime)
      (evidenceFile : last.evidenceStore = .sqlite evidence)
      (activationFile : last.activationStore = .sqlite activations) :
      Boots (some last)
        (buildReferenceSystem arguments (.sqlite evidence activations) clock).world

namespace Boots

variable {last : Option World} {world : World}

/-- Every process begins with the counter of the defaults. -/
theorem counter (boots : Boots last world) : world.state.monotonicCounter = 184991 := by
  cases boots <;> rfl

/-- Every process begins with an empty nonce registry. -/
theorem nonceRegistry (boots : Boots last world) : world.nonceRegistry = ∅ := by
  cases boots <;> rfl

end Boots

/-! ### The files a process leaves -/

def EvidenceStore.file : EvidenceStore → SQLiteEvidenceStore
  | .inMemory _ => .empty
  | .sqlite store => store

def ActivationStore.file : ActivationStore → SQLiteActivationStore
  | .inMemory _ => .empty
  | .sqlite store => store

namespace World

/-- The state directory, as the next process finds it. -/
def directory (world : World) : Persistence :=
  .sqlite world.evidenceStore.file world.activationStore.file

/-- Both stores live in the state directory. -/
structure OnDisk (world : World) : Prop where
  evidence : world.evidenceStore = .sqlite world.evidenceStore.file
  activations : world.activationStore = .sqlite world.activationStore.file

/-- No operation moves a store. -/
theorem OnDisk.exec [Hashlib] {world : World} (onDisk : world.OnDisk) (op : Op) :
    (World.exec op world).2.OnDisk := by
  obtain ⟨clock, state, registry, evidence, activations, networks⟩ := world
  obtain ⟨evidenceFile, activationFile⟩ := onDisk
  dsimp only at evidenceFile activationFile
  generalize evidence.file = rows at evidenceFile
  generalize activations.file = records at activationFile
  subst evidenceFile activationFile
  cases op with
  | commitEvidence fields =>
      rcases outcome : rows.commit fields with error | ⟨record, store⟩ <;>
        constructor <;>
        simp [World.exec, EvidenceStore.commit, outcome, EvidenceStore.file, ActivationStore.file]
  | putActivation record =>
      rcases outcome : records.put record with error | store <;>
        constructor <;>
        simp [World.exec, ActivationStore.put, outcome, EvidenceStore.file, ActivationStore.file]
  | consume authorityId =>
      rcases outcome : records.consume authorityId with error | ⟨consumed, store⟩ <;>
        constructor <;>
        simp [World.exec, ActivationStore.consume, outcome, EvidenceStore.file,
          ActivationStore.file]
  | unconsume authorityId =>
      rcases outcome : records.unconsume authorityId with error | store <;>
        constructor <;>
        simp [World.exec, ActivationStore.unconsume, outcome, EvidenceStore.file,
          ActivationStore.file]
  | apply network effect draw => cases draw <;> exact ⟨rfl, rfl⟩
  | _ => exact ⟨rfl, rfl⟩

end World

/-- A process on a directory can be followed by another one on it. -/
theorem Boots.directory {last : World} (onDisk : last.OnDisk) (arguments : SystemArguments)
    (clock : DateTime) :
    Boots (some last) (buildReferenceSystem arguments last.directory clock).world :=
  .again arguments clock onDisk.evidence onDisk.activations

/-- A process on a directory keeps its stores there. -/
theorem onDisk_built {evidence : SQLiteEvidenceStore} {activations : SQLiteActivationStore}
    (arguments : SystemArguments) (clock : DateTime) :
    (buildReferenceSystem arguments (.sqlite evidence activations) clock).world.OnDisk :=
  ⟨rfl, rfl⟩

/-- A call leaves the stores where they are. -/
theorem onDisk_run [Hashlib] {α : Type} {program : Program α} {world : World}
    (onDisk : world.OnDisk) : (program.run World.exec world).2.OnDisk := by
  have answered := Procedure.trace_answered World.exec program world
  exact answered.keeps World.exec World.OnDisk (fun event _ world before => before.exec event.op)
    onDisk

namespace Reference

/-- The reference system on an empty directory. -/
def diskStart : ReferenceSystem := buildReferenceSystem arguments (.sqlite .empty .empty) clock

theorem diskStart_boots : Boots none diskStart.world := .first arguments clock (.inr rfl)

end Reference
end NetworkFinality
