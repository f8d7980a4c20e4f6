import NetworkFinality.Refinement.ActivationTable
import NetworkFinality.Refinement.EvidenceTable
import NetworkFinality.Model.World
import NetworkFinality.Semantics.Pool

/-!
# What an operation can do

Each operation on the world is a step of three abstract components: the activation
table, the evidence table and the networks' effects. A step names the event that
caused it, so that a later proof asks which events it has seen and never unfolds
an operation.
-/

namespace NetworkFinality

open Python Semantics

namespace World

/-- The table of the activation store. -/
def activations (world : World) : ActivationTable := world.activationStore.table

/-- The table of the evidence store. -/
def evidence (world : World) : EvidenceTable := world.evidenceStore.table

/-- The effect a network has recorded under an identifier. -/
def effect (world : World) (network : Nat) (effectId : Str) : Option NetworkEffect :=
  (world.networks network).effects.get effectId

end World

/-- One event's change of the activation table. -/
inductive ActivationStep (event : Event system) (before after : ActivationTable) : Prop where
  | same (unchanged : after = before)
  | put (record : ActivationRecord) (performed : event = ⟨.putActivation record, .ok ()⟩)
      (free : before record.authorityId = none)
      (stored : after = Function.update before record.authorityId (some (record.withUsed false)))
  | consume (authorityId : Str) (record : ActivationRecord)
      (performed : event = ⟨.consume authorityId, .ok true⟩)
      (present : before authorityId = some record) (unused : record.used = false)
      (consumed : after = before.setUsed authorityId true)
  | unconsume (authorityId : Str) (performed : event = ⟨.unconsume authorityId, .ok ()⟩)
      (restored : after = before.setUsed authorityId false)

/-- One event's change of the evidence table. -/
inductive EvidenceStep [Hashlib] (event : Event system) (before after : EvidenceTable) : Prop where
  | same (unchanged : after = before)
  | commit (fields : EvidenceFields) (record stored : EvidenceRecord)
      (performed : event = ⟨.commitEvidence fields, .ok record⟩)
      (returned : record.toEvidenceFields = fields)
      (digest : fields.bodyDigest record.previousDigest = .ok record.digest)
      (agrees : stored.SameInstant record)
      (appended : after = Function.update before fields.evidenceId (some stored))

/-- One event's change of the recorded effects. -/
inductive EffectStep (event : Event system) (before after : Nat → Str → Option NetworkEffect) :
    Prop where
  | same (unchanged : after = before)
  | apply (network : Nat) (effect : NetworkEffect) (draw : Option Str) (effectId : Str)
      (performed : event = ⟨.apply network effect draw, .ok effectId⟩)
      (recorded : after network effectId = some effect)
      (others : ∀ other otherId, (other, otherId) ≠ (network, effectId) →
        after other otherId = before other otherId)

namespace ActivationStep

variable {event : Event system} {before after : ActivationTable}

/-- No step takes back what was issued. -/
theorem keeps (step : ActivationStep event before after) {authorityId : Str}
    {record : ActivationRecord} (present : before.issued authorityId = some record) :
    after.issued authorityId = some record := by
  cases step with
  | same unchanged => rw [unchanged, present]
  | put new performed free stored =>
      have different : authorityId ≠ new.authorityId := by
        rintro rfl
        simp [ActivationTable.issued, free] at present
      rw [← present, stored, ActivationTable.issued, Function.update_of_ne different]
      rfl
  | consume _ _ _ _ _ consumed => rw [consumed, ActivationTable.issued_setUsed, present]
  | unconsume _ _ restored => rw [restored, ActivationTable.issued_setUsed, present]

/-- What is issued was issued before or is put by the step. -/
theorem origin (step : ActivationStep event before after) {authorityId : Str}
    {record : ActivationRecord} (present : after.issued authorityId = some record) :
    before.issued authorityId = some record ∨
      ∃ new, event = ⟨.putActivation new, .ok ()⟩ ∧ new.authorityId = authorityId ∧
        new.withUsed false = record := by
  cases step with
  | same unchanged => exact .inl (by rw [← unchanged, present])
  | put new performed free stored =>
      by_cases same : authorityId = new.authorityId
      · subst same
        simp only [stored, ActivationTable.issued, Function.update_self, Option.map_some,
          Option.some.injEq] at present
        exact .inr ⟨new, performed, rfl, present⟩
      · left
        rw [← present, stored, ActivationTable.issued, ActivationTable.issued,
          Function.update_of_ne same]
  | consume _ _ _ _ _ consumed =>
      rw [consumed, ActivationTable.issued_setUsed] at present
      exact .inl present
  | unconsume _ _ restored =>
      rw [restored, ActivationTable.issued_setUsed] at present
      exact .inl present

/-- Only `unconsume` clears a flag. -/
theorem keeps_used (step : ActivationStep event before after) {authorityId : Str}
    (used : before.Used authorityId) :
    after.Used authorityId ∨ event = ⟨.unconsume authorityId, .ok ()⟩ := by
  obtain ⟨record, present, flag⟩ := used
  cases step with
  | same unchanged => exact .inl ⟨record, by rw [unchanged, present], flag⟩
  | put new performed free stored =>
      have different : authorityId ≠ new.authorityId := by
        rintro rfl
        rw [free] at present
        cases present
      exact .inl ⟨record, by rw [stored, Function.update_of_ne different, present], flag⟩
  | consume consumedId _ _ _ _ consumed =>
      left
      by_cases same : authorityId = consumedId
      · subst same
        exact ⟨_, by rw [consumed, ActivationTable.setUsed_self present], rfl⟩
      · rw [consumed, ActivationTable.used_setUsed same]
        exact ⟨record, present, flag⟩
  | unconsume restoredId performed restored =>
      by_cases same : authorityId = restoredId
      · subst same
        exact .inr performed
      · left
        rw [restored, ActivationTable.used_setUsed same]
        exact ⟨record, present, flag⟩

/-- Only `consume` sets a flag. -/
theorem used_origin (step : ActivationStep event before after) {authorityId : Str}
    (used : after.Used authorityId) :
    before.Used authorityId ∨ event = ⟨.consume authorityId, .ok true⟩ := by
  cases step with
  | same unchanged => exact .inl (unchanged ▸ used)
  | put new performed free stored =>
      obtain ⟨record, present, flag⟩ := used
      by_cases same : authorityId = new.authorityId
      · subst same
        rw [stored, Function.update_self] at present
        obtain rfl := Option.some.inj present
        cases flag
      · rw [stored, Function.update_of_ne same] at present
        exact .inl ⟨record, present, flag⟩
  | consume consumedId _ performed _ _ consumed =>
      by_cases same : authorityId = consumedId
      · subst same
        exact .inr performed
      · rw [consumed, ActivationTable.used_setUsed same] at used
        exact .inl used
  | unconsume restoredId _ restored =>
      by_cases same : authorityId = restoredId
      · subst same
        obtain ⟨record, present, flag⟩ := used
        simp only [restored, ActivationTable.setUsed, if_true, Option.map_eq_some_iff] at present
        obtain ⟨_, -, rfl⟩ := present
        cases flag
      · rw [restored, ActivationTable.used_setUsed same] at used
        exact .inl used

end ActivationStep

/-- A stored record and the commit it stems from. -/
structure EvidenceOrigin [Hashlib] (evidenceId : Str) (stored : EvidenceRecord)
    (fields : EvidenceFields) (committed : EvidenceRecord) : Prop where
  named : fields.evidenceId = evidenceId
  returned : committed.toEvidenceFields = fields
  digest : fields.bodyDigest committed.previousDigest = .ok committed.digest
  agrees : stored.SameInstant committed

/-- What is stored was stored before or is committed by the step. -/
theorem EvidenceStep.origin [Hashlib] {event : Event system} {before after : EvidenceTable}
    (step : EvidenceStep event before after) {evidenceId : Str} {record : EvidenceRecord}
    (present : after evidenceId = some record) :
    before evidenceId = some record ∨
      ∃ fields committed, event = ⟨.commitEvidence fields, .ok committed⟩ ∧
        EvidenceOrigin evidenceId record fields committed := by
  cases step with
  | same unchanged => exact .inl (by rw [← unchanged, present])
  | commit fields committed stored performed returned digest agrees appended =>
      by_cases same : evidenceId = fields.evidenceId
      · subst same
        rw [appended, Function.update_self] at present
        obtain rfl := Option.some.inj present
        exact .inr ⟨fields, committed, performed, rfl, returned, digest, agrees⟩
      · rw [appended, Function.update_of_ne same] at present
        exact .inl present

/-- No step removes the record under an identifier. -/
theorem EvidenceStep.keeps [Hashlib] {event : Event system} {before after : EvidenceTable}
    (step : EvidenceStep event before after) {evidenceId : Str}
    (present : before evidenceId ≠ none) : after evidenceId ≠ none := by
  cases step with
  | same unchanged => rwa [unchanged]
  | commit fields committed stored performed returned digest agrees appended =>
      by_cases same : evidenceId = fields.evidenceId
      · subst same
        simp [appended]
      · rwa [appended, Function.update_of_ne same]

/-- What is recorded was recorded before or is applied by the step. -/
theorem EffectStep.origin {event : Event system} {before after : Nat → Str → Option NetworkEffect}
    (step : EffectStep event before after) {network : Nat} {effectId : Str} {effect : NetworkEffect}
    (present : after network effectId = some effect) :
    before network effectId = some effect ∨
      ∃ draw, event = ⟨.apply network effect draw, .ok effectId⟩ := by
  cases step with
  | same unchanged => exact .inl (by rw [← unchanged, present])
  | apply network' effect' draw effectId' performed recorded others =>
      by_cases same : (network, effectId) = (network', effectId')
      · obtain ⟨rfl, rfl⟩ := Prod.mk.inj same
        obtain rfl := Option.some.inj (recorded.symm.trans present)
        exact .inr ⟨draw, performed⟩
      · rw [others network effectId same] at present
        exact .inl present

/-- No step removes the effect under an identifier. -/
theorem EffectStep.keeps {event : Event system} {before after : Nat → Str → Option NetworkEffect}
    (step : EffectStep event before after) {network : Nat} {effectId : Str}
    (present : before network effectId ≠ none) : after network effectId ≠ none := by
  cases step with
  | same unchanged => rwa [unchanged]
  | apply network' effect draw effectId' performed recorded others =>
      by_cases same : (network, effectId) = (network', effectId')
      · obtain ⟨rfl, rfl⟩ := Prod.mk.inj same
        simp [recorded]
      · rwa [others network effectId same]

namespace World

variable [Hashlib] (op : Op) (world : World)

/-- Only an effect changes a network. -/
theorem exec_networks (quiet : ∀ network effect draw, op ≠ .apply network effect draw) :
    (exec op world).2.networks = world.networks := by
  cases op with
  | apply network effect draw => exact absurd rfl (quiet network effect draw)
  | _ =>
      simp only [exec]
      try split
      all_goals rfl

/-- Only a commit changes the evidence store. -/
theorem exec_evidenceStore (quiet : ∀ fields, op ≠ .commitEvidence fields) :
    (exec op world).2.evidenceStore = world.evidenceStore := by
  cases op with
  | commitEvidence fields => exact absurd rfl (quiet fields)
  | _ =>
      simp only [exec]
      try split
      all_goals rfl

theorem exec_activations :
    ActivationStep ⟨op, (exec op world).1⟩ world.activations (exec op world).2.activations := by
  cases op with
  | putActivation record =>
      cases outcome : world.activationStore.put record with
      | error error =>
          apply ActivationStep.same
          simp only [exec, outcome]
      | ok store =>
          obtain ⟨free, stored⟩ := ActivationStore.table_put outcome
          apply ActivationStep.put record _ free
          · simpa only [activations, exec, outcome] using stored
          · simp only [exec, outcome]
  | consume authorityId =>
      rcases outcome : world.activationStore.consume authorityId with error | ⟨consumed, store⟩
      · apply ActivationStep.same
        simp only [exec, outcome]
      · cases consumed with
        | false =>
            apply ActivationStep.same
            simp only [exec, outcome, ActivationStore.consume_false outcome]
        | true =>
            obtain ⟨⟨record, present, unused⟩, table, -⟩ := ActivationStore.consume_true outcome
            apply ActivationStep.consume authorityId record _ present unused
            · simpa only [activations, exec, outcome] using table
            · simp only [exec, outcome]
  | unconsume authorityId =>
      cases outcome : world.activationStore.unconsume authorityId with
      | error error =>
          apply ActivationStep.same
          simp only [exec, outcome]
      | ok store =>
          apply ActivationStep.unconsume authorityId
          · simp only [exec, outcome]
          · simpa only [activations, exec, outcome] using ActivationStore.table_unconsume outcome
  | commitEvidence fields | apply network effect draw =>
      apply ActivationStep.same
      simp only [exec]
      split <;> rfl
  | _ => exact .same rfl

theorem exec_evidence :
    EvidenceStep ⟨op, (exec op world).1⟩ world.evidence (exec op world).2.evidence := by
  cases op with
  | commitEvidence fields =>
      rcases outcome : world.evidenceStore.commit fields with error | ⟨record, store⟩
      · apply EvidenceStep.same
        simp only [exec, outcome]
      · have committed := EvidenceStore.commit_ok outcome
        obtain ⟨stored, agrees, table⟩ := committed.table
        have previous : record.previousDigest = world.evidenceStore.tail := by
          rw [committed.returned]
        apply EvidenceStep.commit fields record stored _ _ _ agrees
        · simpa only [evidence, exec, outcome] using table
        · simp only [exec, outcome]
        · rw [committed.returned]
        · rw [previous, committed.digest]
  | _ => exact .same (congrArg EvidenceStore.table (exec_evidenceStore _ world (by simp)))

theorem exec_effect :
    EffectStep ⟨op, (exec op world).1⟩ world.effect (exec op world).2.effect := by
  cases op with
  | apply network effect draw =>
      cases draw with
      | none => exact .same rfl
      | some hex =>
          apply EffectStep.apply network effect (some hex) (("net-effect-" : Str) ++ hex)
          · rfl
          · simp [World.effect, exec, DemoNetwork.apply]
          · intro other otherId different
            by_cases same : other = network
            · subst same
              have ne : otherId ≠ ("net-effect-" : Str) ++ hex := by
                intro equal
                exact different (by rw [equal])
              simp [World.effect, exec, DemoNetwork.apply, Dict.get_set_ne _ _ ne]
            · simp [World.effect, exec, DemoNetwork.apply, same]
  | _ =>
      apply EffectStep.same
      unfold World.effect
      rw [exec_networks]
      simp

/-! ### What the components keep -/

/-- An authority is consumed only while it is not, and is consumed afterwards. -/
theorem exec_consume {authorityId : Str}
    (consumed : (exec (.consume authorityId) world).1 = .ok true) :
    ¬ world.activations.Used authorityId ∧
      (exec (.consume authorityId) world).2.activations.Used authorityId := by
  rcases outcome : world.activationStore.consume authorityId with error | ⟨flag, store⟩
  · simp [exec, outcome] at consumed
  · obtain rfl : flag = true := by simpa [exec, outcome] using consumed
    obtain ⟨⟨record, present, unused⟩, table, -⟩ := ActivationStore.consume_true outcome
    constructor
    · rintro ⟨other, present', used⟩
      obtain rfl := Option.some.inj (present.symm.trans present')
      rw [unused] at used
      cases used
    · simp only [activations, exec, outcome, table]
      exact ⟨_, ActivationTable.setUsed_self present true, rfl⟩

/-- A consumption that does not succeed changes nothing. -/
theorem exec_consume_failed {authorityId : Str}
    (failed : (exec (.consume authorityId) world).1 ≠ .ok true) :
    (exec (.consume authorityId) world).2 = world := by
  rcases outcome : world.activationStore.consume authorityId with error | ⟨flag, store⟩
  · simp only [exec, outcome]
  · cases flag with
    | true => simp [exec, outcome] at failed
    | false => simp only [exec, outcome, ActivationStore.consume_false outcome]

/-- What a consumption changes, and that undoing it changes it back. -/
theorem exec_consumed {authorityId : Str}
    (consumed : (exec (.consume authorityId) world).1 = .ok true) :
    ∃ store : ActivationStore, (exec (.consume authorityId) world).2 =
        { world with activationStore := store } ∧
      (∃ record, world.activations authorityId = some record ∧ record.used = false) ∧
      store.table = world.activations.setUsed authorityId true ∧
      store.unconsume authorityId = .ok world.activationStore := by
  rcases outcome : world.activationStore.consume authorityId with error | ⟨flag, store⟩
  · simp [exec, outcome] at consumed
  · obtain rfl : flag = true := by simpa [exec, outcome] using consumed
    obtain ⟨free, table, restored⟩ := ActivationStore.consume_true outcome
    exact ⟨store, by simp only [exec, outcome], free, table, restored⟩

/-- An unconsumed authority can be consumed. -/
theorem exec_consume_unused {authorityId : Str} {record : ActivationRecord}
    (present : world.activations authorityId = some record) (unused : record.used = false) :
    (exec (.consume authorityId) world).1 = .ok true := by
  obtain ⟨store, consumed⟩ := ActivationStore.consume_unused present unused
  simp only [exec, consumed]

/-- A consumed authority cannot. -/
theorem exec_consume_used {authorityId : Str} {record : ActivationRecord}
    (present : world.activations authorityId = some record) (used : record.used = true) :
    (exec (.consume authorityId) world).1 = .ok false := by
  simp only [exec, ActivationStore.consume_used present used]

/-- The consumption of an authority can be undone, and then it is not consumed. -/
theorem exec_unconsume_used {authorityId : Str} (used : world.activations.Used authorityId) :
    (exec (.unconsume authorityId) world).1 = .ok () := by
  obtain ⟨record, present, -⟩ := used
  obtain ⟨store, cleared⟩ := ActivationStore.unconsume_some present
  simp only [exec, cleared]

theorem exec_unconsumed {authorityId : Str}
    (cleared : (exec (.unconsume authorityId) world).1 = .ok ()) :
    ¬ (exec (.unconsume authorityId) world).2.activations.Used authorityId := by
  rcases outcome : world.activationStore.unconsume authorityId with error | store
  · simp [exec, outcome] at cleared
  · rintro ⟨record, present, flag⟩
    simp only [activations, exec, outcome, ActivationStore.table_unconsume outcome,
      ActivationTable.setUsed, if_true, Option.map_eq_some_iff] at present
    obtain ⟨_, -, rfl⟩ := present
    cases flag

/-- Undoing a consumption restores the world. -/
theorem exec_undone {authorityId : Str}
    (consumed : (exec (.consume authorityId) world).1 = .ok true) :
    (exec (.unconsume authorityId) (exec (.consume authorityId) world).2).2 = world := by
  obtain ⟨store, changed, -, -, restored⟩ := exec_consumed world consumed
  rw [changed]
  simp only [exec, restored]

/-- An effect that is applied is recorded on its network, under the drawn identifier. -/
theorem exec_apply {network : Nat} {effect : NetworkEffect} {draw : Option Str} {effectId : Str}
    (applied : (exec (.apply network effect draw) world).1 = .ok effectId) :
    (∃ hex, draw = some hex ∧ effectId = ("net-effect-" : Str) ++ hex) ∧
      (exec (.apply network effect draw) world).2 = { world with
        networks := Function.update world.networks network
          ⟨(world.networks network).effects.set effectId effect⟩ } := by
  cases draw with
  | none => cases applied
  | some hex =>
      have named : ("net-effect-" : Str) ++ hex = effectId := Except.ok.inj applied
      subst named
      exact ⟨⟨hex, rfl, rfl⟩, rfl⟩

/-- An effect that fails changes nothing. -/
theorem exec_apply_failed {network : Nat} {effect : NetworkEffect} {draw : Option Str}
    {error : PyError} (failed : (exec (.apply network effect draw) world).1 = .error error) :
    (exec (.apply network effect draw) world).2 = world := by
  cases draw with
  | none => rfl
  | some hex => cases failed

/-- A record is put only under a free identifier, and unconsumed. -/
theorem exec_put {record : ActivationRecord}
    (stored : (exec (.putActivation record) world).1 = .ok ()) :
    world.activations record.authorityId = none ∧
      (exec (.putActivation record) world).2.activations record.authorityId =
        some (record.withUsed false) := by
  cases outcome : world.activationStore.put record with
  | error error => simp [exec, outcome] at stored
  | ok store =>
      obtain ⟨free, table⟩ := ActivationStore.table_put outcome
      exact ⟨free, by simp [activations, exec, outcome, table]⟩

/-- Committed evidence has the given fields and their digest, and is stored. -/
theorem exec_commit {fields : EvidenceFields} {record : EvidenceRecord}
    (committed : (exec (.commitEvidence fields) world).1 = .ok record) :
    record.toEvidenceFields = fields ∧
      fields.bodyDigest record.previousDigest = .ok record.digest ∧
      ∃ stored : EvidenceRecord, stored.SameInstant record ∧
        (exec (.commitEvidence fields) world).2.evidence fields.evidenceId = some stored := by
  rcases outcome : world.evidenceStore.commit fields with error | ⟨result, store⟩
  · simp [exec, outcome] at committed
  · obtain rfl : result = record := by simpa [exec, outcome] using committed
    have facts := EvidenceStore.commit_ok outcome
    have previous : result.previousDigest = world.evidenceStore.tail := by rw [facts.returned]
    obtain ⟨stored, agrees, table⟩ := facts.table
    refine ⟨by rw [facts.returned], by rw [previous, facts.digest], stored, agrees, ?_⟩
    simp [evidence, exec, outcome, table]

/-- Evidence changes only by a commit under its identifier. -/
theorem exec_evidence_other {evidenceId : Str}
    (other : ∀ fields, op = .commitEvidence fields → fields.evidenceId ≠ evidenceId) :
    (exec op world).2.evidence evidenceId = world.evidence evidenceId := by
  cases exec_evidence op world with
  | same unchanged => rw [unchanged]
  | commit fields record stored performed _ _ _ appended =>
      obtain ⟨rfl, -⟩ := Event.mk.inj performed
      rw [appended, Function.update_of_ne (other fields rfl).symm]

/-- A nonce is reserved only while it is new, and is not new afterwards. -/
theorem exec_reserve {nonce : Str} (reserved : (exec (.reserve nonce) world).1 = true) :
    nonce ∉ world.nonceRegistry ∧ nonce ∈ (exec (.reserve nonce) world).2.nonceRegistry := by
  by_cases seen : nonce ∈ world.nonceRegistry
  · simp [exec, NonceRegistry.reserve, seen] at reserved
  · simp [exec, NonceRegistry.reserve, seen]

/-- No operation sets the clock. -/
theorem exec_clock : (exec op world).2.clock = world.clock := by
  cases op with
  | _ =>
      simp only [exec]
      try split
      all_goals rfl

/-- An operation changes the protected state only by advancing its counter. -/
theorem exec_state :
    (exec op world).2.state = world.state ∨
      (exec op world).2.state = world.state.advanceCounter.2 := by
  cases op with
  | advanceCounter => exact .inr rfl
  | _ =>
      left
      simp only [exec]
      try split
      all_goals rfl

omit world in
/-- A read of the clock or the protected state depends on nothing else. -/
theorem exec_observed {left right : World} (read : op.observesState = true)
    (clock : left.clock = right.clock)
    (epochs : ∀ epoch, left.state.epoch epoch = right.state.epoch epoch)
    (reference : left.state.protectedStateReference = right.state.protectedStateReference)
    (allowed : ∀ list, left.state.allowed list = right.state.allowed list)
    (attestation : left.state.requireAttestation = right.state.requireAttestation) :
    (exec op left).1 = (exec op right).1 := by
  cases op with
  | clock => exact clock
  | epoch epoch => exact epochs epoch
  | protectedStateReference => exact reference
  | allowed list => exact allowed list
  | requireAttestation => exact attestation
  | _ => cases read

omit op world in
/-- No operation changes what a read of the clock or the protected state answers. -/
theorem observes : Pool.Observes exec (fun op : Op => op.observesState = true) where
  stable op read other world := by
    have clock := exec_clock other world
    rcases exec_state other world with same | advanced
    · apply exec_observed op read clock <;> simp [same]
    · apply exec_observed op read clock <;> simp [advanced]

/-- No operation forgets a nonce. -/
theorem exec_nonceRegistry {nonce : Str} (seen : nonce ∈ world.nonceRegistry) :
    nonce ∈ (exec op world).2.nonceRegistry := by
  cases op with
  | reserve other =>
      by_cases known : other ∈ world.nonceRegistry <;>
        simp [exec, NonceRegistry.reserve, known, seen]
  | _ =>
      simp only [exec]
      try split
      all_goals exact seen

end World
end NetworkFinality
