import NetworkFinality.Safety.Currency

/-!
# Revocation and expiry are final

Epochs and the clock only advance. Once an epoch has moved past what an authority binds, no
call that reads the epoch from there on issues the authority or applies an effect under it,
and once the authority has expired, no call that reads the clock from there on applies one.
What remains are the calls in flight that have read before. Each can apply its effect once.
-/

namespace NetworkFinality

open Python Semantics Procedure

/-- The environment advances the clock and the epochs. -/
structure World.Advances (before after : World) : Prop extends World.Environment before after where
  clock : before.clock ≤ after.clock
  epochs : ∀ epoch, before.state.epoch epoch ≤ after.state.epoch epoch

/-- The environment of a schedule never turns the clock or an epoch back. -/
def Advancing [Hashlib] (schedule : Schedule Call.program World) : Prop :=
  ∀ pool world, schedule.changes pool world → World.Advances pool.shared world

/-- Any call may start at any time, and the clock and the epochs may advance. -/
def advancing [Hashlib] : Schedule Call.program World where
  starts _ _ := True
  changes pool world := World.Advances pool.shared world

theorem advancing_advancing [Hashlib] : Advancing advancing := fun _ _ => id

theorem World.revoke_advances (world : World) : World.Advances world world.revoke where
  toEnvironment := world.revoke_environment
  clock := Nat.le_refl _
  epochs epoch := by
    cases epoch <;> simp [World.revoke, ProtectedNetworkState.epoch]

section

variable [Hashlib] {schedule : Schedule Call.program World} {before after : Pool Call.program World}
  {thread : Thread Call.program} {authority : NetworkFinalityAuthority}

theorem World.exec_epoch (op : Op) (world : World) (epoch : Epoch) :
    (World.exec op world).2.state.epoch epoch = world.state.epoch epoch := by
  rcases World.exec_state op world with same | advanced
  · rw [same]
  · rw [advanced, ProtectedNetworkState.advanceCounter_epoch]

/-- Whoever reads an epoch from some point on reads no less than what it was there. -/
theorem epochs_since (advancing : Advancing schedule)
    (steps : Pool.Steps World.exec schedule before after) {index : Nat}
    (found : after.threads[index]? = some thread) {epoch : Epoch} {answer : Int}
    (read : ⟨.epoch epoch, answer⟩ ∈ thread.past)
    (outdated : answer < before.shared.state.epoch epoch) :
    before.HasPerformed index ⟨.epoch epoch, answer⟩ := by
  have since := Pool.since
    (fun world : World => before.shared.state.epoch epoch ≤ world.state.epoch epoch)
    (fun event : Event system => event ≠ ⟨.epoch epoch, answer⟩)
    (fun op world kept => by rwa [World.exec_epoch])
    (fun pool world changed kept => Int.le_trans kept ((advancing pool world changed).epochs epoch))
    ?_ steps (Int.le_refl _)
  · exact (since.2 index thread found _ read).resolve_left fun other => other rfl
  · intro op world kept same
    obtain ⟨rfl, answered⟩ := Event.mk.inj same
    have answered : world.state.epoch epoch = answer := eq_of_heq answered
    omega

/-- Whoever reads the clock from some point on reads no less than what it was there. -/
theorem clock_since (advancing : Advancing schedule)
    (steps : Pool.Steps World.exec schedule before after) {index : Nat}
    (found : after.threads[index]? = some thread) {now : DateTime}
    (read : ⟨.clock, now⟩ ∈ thread.past) (outdated : now < before.shared.clock) :
    before.HasPerformed index ⟨.clock, now⟩ := by
  have since := Pool.since (fun world : World => before.shared.clock ≤ world.clock)
    (fun event : Event system => event ≠ ⟨.clock, now⟩)
    (fun op world kept => by rwa [World.exec_clock])
    (fun pool world changed kept => Nat.le_trans kept (advancing pool world changed).clock)
    ?_ steps (Nat.le_refl _)
  · exact (since.2 index thread found _ read).resolve_left fun other => other rfl
  · intro op world kept same
    obtain ⟨rfl, answered⟩ := Event.mk.inj same
    have answered : world.clock = now := eq_of_heq answered
    rw [answered] at kept
    exact absurd outdated (Nat.not_lt.mpr kept)

/-- The call has applied an effect under the authority it presents. -/
def Exercised (thread : Thread Call.program) (authority : NetworkFinalityAuthority) : Prop :=
  thread.call.presented = some authority ∧
    ∃ network effect draw effectId, ⟨.apply network effect draw, .ok effectId⟩ ∈ thread.past

/-- A call that has exercised an authority has read the clock and the epochs it binds. -/
theorem Exercised.reads (exercised : Exercised thread authority) :
    (∃ now, now < authority.lifetime.expiresAt ∧ ⟨.clock, now⟩ ∈ thread.past) ∧
      ∀ epoch, ⟨.epoch epoch, (authority.binding.epoch epoch : Int)⟩ ∈ thread.past := by
  obtain ⟨presented, network, effect, draw, effectId, applied⟩ := exercised
  obtain ⟨sink, request, authority', called, -, -, cleared, -⟩ := applied_of_thread applied
  obtain ⟨now, evidence, activation, admitted, performed⟩ := cleared
  rw [called] at presented
  obtain rfl : authority = authority' :=
    Option.some.inj (presented.symm.trans admitted.presented)
  refine ⟨⟨now, ?_, performed _ (by simp [guardEvents])⟩, fun epoch => performed _ ?_⟩
  · exact Nat.not_le.mp admitted.unexpired
  · cases epoch <;> simp [guardEvents, AuthorityBinding.epoch]

/-- A call that has issued an authority has read the epochs it binds. -/
theorem Returned.reads (returned : Returned thread authority) (epoch : Epoch) :
    ⟨.epoch epoch, (authority.binding.epoch epoch : Int)⟩ ∈ thread.past := by
  obtain ⟨result, ended, issued⟩ := returned
  obtain ⟨call, past, rest, reached⟩ := thread
  cases call with
  | validateAndIssue ped draws candidate =>
      obtain ⟨decision, returned⟩ := result
      obtain rfl : returned = some authority := issued
      obtain rfl : rest = .done ⟨decision, some authority⟩ := ended
      obtain ⟨now, evidence, activation, issued⟩ :=
        ProtectedEnforcementDomain.issued_of_returns reached
      exact issued.prepared.binding.epochs epoch
  | verifyAndEffectuate sink request draw => cases issued

/-- Under every interleaving with an environment that only advances the clock and the epochs,
whoever issues an authority or applies an effect under it once one of its epochs is outdated
has read that epoch before, and whoever applies one once it has expired has read the clock
before. -/
theorem outdated_in_flight (advancing : Advancing schedule)
    (steps : Pool.Steps World.exec schedule before after) :
    ∀ index thread authority, after.threads[index]? = some thread →
      (Returned thread authority ∨ Exercised thread authority → ∀ epoch,
        (authority.binding.epoch epoch : Int) < before.shared.state.epoch epoch →
          before.HasPerformed index ⟨.epoch epoch, (authority.binding.epoch epoch : Int)⟩) ∧
      (Exercised thread authority → authority.lifetime.expiresAt ≤ before.shared.clock →
        ∃ now, now < authority.lifetime.expiresAt ∧ before.HasPerformed index ⟨.clock, now⟩) := by
  intro index thread authority found
  constructor
  · intro uses epoch outdated
    have read : ⟨.epoch epoch, (authority.binding.epoch epoch : Int)⟩ ∈ thread.past := by
      rcases uses with returned | exercised
      · exact returned.reads epoch
      · exact exercised.reads.2 epoch
    exact epochs_since advancing steps found read outdated
  · intro exercised expired
    obtain ⟨⟨now, unexpired, read⟩, -⟩ := exercised.reads
    have outdated : now < before.shared.clock := Nat.lt_of_lt_of_le unexpired expired
    exact ⟨now, unexpired, clock_since advancing steps found read outdated⟩

end

namespace Reference

/-- The revocation lands while the effectuated request is in flight, which has read the
revocation epoch before. -/
theorem outdated_in_flight_revoked :
    ∃ before after, Pool.Steps (@World.exec .checksum) (@advancing .checksum)
        (Pool.initial (@Call.program .checksum) start.world) before ∧
      Pool.Steps (@World.exec .checksum) (@advancing .checksum) before after ∧
      ∃ index thread authority, after.threads[index]? = some thread ∧
        @Exercised .checksum thread authority ∧
        (authority.binding.revocationEpoch : Int) < before.shared.state.revocationEpoch ∧
        before.HasPerformed index
          ⟨.epoch .revocation, (authority.binding.revocationEpoch : Int)⟩ := by
  obtain ⟨before, steps, thread, member, network, effect, draw, next, sink, request, authority,
      evidence, activation, calls, ⟨effectId, applied⟩, presented, permitted, shared⟩ :=
    effect_next (@advancing .checksum) (fun _ _ => trivial)
      (fun pool shared => by
        change World.Advances pool.shared issuedWorld.revoke
        rw [shared]
        exact issuedWorld.revoke_advances)
      issuedWorld.revoke_environment
  obtain ⟨index, inside, rfl⟩ := List.mem_iff_getElem.mp member
  have found := List.getElem?_eq_getElem inside
  have performs : Pool.Steps (@World.exec .checksum) (@advancing .checksum) before _ :=
    .tail .refl (.perform found calls)
  have outdated : (authority.binding.revocationEpoch : Int) <
      before.shared.state.epoch .revocation := by
    have bound : issuedWorld.state.epoch .revocation = (authority.binding.revocationEpoch : Int) :=
      @Permitted.epochs .checksum _ _ _ _ _ _ permitted .revocation
    rw [shared, @World.exec_epoch .checksum, ← bound]
    exact Int.lt_succ _
  have exercised : @Exercised .checksum (before.threads[index].advance calls
      (@World.exec .checksum (Op.apply network effect draw) before.shared).1) authority := by
    refine ⟨presented, network, effect, draw, effectId, ?_⟩
    rw [← applied]
    simp
  have added : (before.threads.set index (before.threads[index].advance calls
      (@World.exec .checksum (Op.apply network effect draw) before.shared).1))[index]? =
        some (before.threads[index].advance calls
          (@World.exec .checksum (Op.apply network effect draw) before.shared).1) := by
    simp [inside]
  exact ⟨before, _, steps, performs, index, _, authority, added, exercised, outdated,
    (@outdated_in_flight .checksum _ _ _ (@advancing_advancing .checksum) performs index _ authority
      added).1 (.inr exercised) .revocation outdated⟩

end Reference
end NetworkFinality
