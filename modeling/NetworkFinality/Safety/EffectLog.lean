import NetworkFinality.Safety.Agreement
import NetworkFinality.Safety.Provenance

/-!
# The log of effects

A network records every effect under an identifier it draws. Each ALLOW response names
the identifier of its own effect, and the log holds exactly the effects of the ALLOW
responses, as long as no network draws an identifier twice: `apply` does not look
whether the drawn identifier is in use, so a repeated draw replaces an effect.
-/

namespace NetworkFinality

open Python Semantics Procedure

/-- The network of an ALLOW response, and the identifier the response returns. -/
def Call.allowance : (call : Call) → call.Result → Option (Nat × Option Str)
  | .validateAndIssue .., _ => none
  | .verifyAndEffectuate sink _ _, response =>
      if response.decision = .allow then some (sink.network, response.networkEffectId) else none

section

variable [Hashlib]

/-- The ALLOW response a thread has returned. -/
def allowance (thread : Thread Call.program) : Option (Nat × Option Str) :=
  match thread.rest with
  | .done result => thread.call.allowance result
  | _ => none

/-- The identifiers in the ALLOW responses for one network. -/
def allowances (pool : Pool Call.program World) (network : Nat) : List (Option Str) :=
  pool.threads.filterMap fun thread =>
    (allowance thread).bind fun response => if response.1 = network then some response.2 else none

/-- The log has one entry for each ALLOW response, under the identifier the response
returns, with the effect its call has applied. -/
structure EffectsKept (pool : Pool Call.program World) : Prop where
  count : ∀ network,
    (pool.shared.networks network).effects.keys.card = (allowances pool network).length
  distinct : ∀ network, (allowances pool network).Nodup
  recorded : ∀ thread ∈ pool.threads, ∀ network effectId,
    allowance thread = some (network, effectId) →
      ∃ effect draw id, effectId = some id ∧
        ⟨.apply network effect draw, .ok id⟩ ∈ thread.past ∧
        pool.shared.effect network id = some effect

/-- The thread has drawn the digits for an effect on the network. -/
def Draws (thread : Thread Call.program) (network : Nat) (hex : Str) : Prop :=
  ∃ effect effectId, ⟨.apply network effect (some hex), .ok effectId⟩ ∈ thread.past

/-- No two threads have drawn the same digits for effects on one network. -/
def DistinctDraws (pool : Pool Call.program World) : Prop :=
  ∀ (i j : Nat) (first second : Thread Call.program) (network : Nat) (hex : Str),
    pool.threads[i]? = some first → pool.threads[j]? = some second →
    Draws first network hex → Draws second network hex → i = j

/-- A thread has returned an ALLOW response exactly when it has applied an effect. -/
theorem allowance_iff {thread : Thread Call.program} {network : Nat} {effectId : Option Str} :
    allowance thread = some (network, effectId) ↔
      ∃ effect draw id, effectId = some id ∧
        ⟨.apply network effect draw, .ok id⟩ ∈ thread.past := by
  constructor
  · intro allowed
    obtain ⟨call, past, rest, reached⟩ := thread
    cases rest with
    | done result =>
        cases call with
        | validateAndIssue ped draws candidate => cases allowed
        | verifyAndEffectuate sink request draw =>
            obtain ⟨authority, now, evidence, activation, id, -, rfl, rfl⟩ :=
              NetworkFinalitySink.verifyAndEffectuate_returns.mp reached
            obtain ⟨rfl, rfl⟩ : sink.network = network ∧ some id = effectId := by
              simpa [allowance, Call.allowance, NetworkFinalitySink.allow] using allowed
            exact ⟨NetworkFinalitySink.effectOf request authority, draw, id, rfl,
              by simp [NetworkFinalitySink.lockEvents]⟩
    | exit reason => cases allowed
    | call op next => cases allowed
  · rintro ⟨effect, draw, id, rfl, applied⟩
    have written := applied_of_thread applied
    obtain ⟨call, past, rest, reached⟩ := thread
    obtain ⟨sink, request, authority, rfl, rfl, rfl, -, -, response, ended⟩ := written
    obtain ⟨response, rfl⟩ : ∃ response : SinkVerifyResponse, rest = .done response := ⟨_, ended⟩
    obtain ⟨authority', now, evidence, activation, id', -, rfl, rfl⟩ :=
      NetworkFinalitySink.verifyAndEffectuate_returns.mp reached
    have same : NetworkFinalitySink.effectOf request authority =
        NetworkFinalitySink.effectOf request authority' ∧ id = id' := by
      simpa [guardEvents, NetworkFinalitySink.lockEvents, eq_comm] using applied
    simp [allowance, Call.allowance, NetworkFinalitySink.allow, same.2]

private theorem allowance_on {thread : Thread Call.program} {network : Nat}
    {effectId : Option Str} :
    ((allowance thread).bind fun response =>
        if response.1 = network then some response.2 else none) = some effectId ↔
      allowance thread = some (network, effectId) := by
  rcases allowance thread with _ | ⟨other, otherId⟩
  · simp
  · by_cases same : other = network <;> simp [same]

theorem mem_allowances {pool : Pool Call.program World} {network : Nat} {effectId : Option Str} :
    effectId ∈ allowances pool network ↔
      ∃ thread ∈ pool.threads, allowance thread = some (network, effectId) := by
  simp only [allowances, List.mem_filterMap, allowance_on]

/-- No identifier is returned twice when no two threads return the same one. -/
theorem allowances_nodup {pool : Pool Call.program World} {network : Nat} :
    (allowances pool network).Nodup ↔
      ∀ (i j : Nat) (first second : Thread Call.program) (effectId : Option Str),
        pool.threads[i]? = some first → pool.threads[j]? = some second →
        allowance first = some (network, effectId) →
        allowance second = some (network, effectId) → i = j := by
  rw [allowances, List.Nodup, List.pairwise_filterMap, List.pairwise_iff_getElem]
  simp only [allowance_on]
  constructor
  · intro distinct i j first second effectId found found' allowed allowed'
    obtain ⟨inside, rfl⟩ := List.getElem?_eq_some_iff.mp found
    obtain ⟨inside', rfl⟩ := List.getElem?_eq_some_iff.mp found'
    rcases Nat.lt_trichotomy i j with before | same | after
    · exact absurd rfl (distinct i j inside inside' before _ allowed _ allowed')
    · exact same
    · exact absurd rfl (distinct j i inside' inside after _ allowed' _ allowed)
  · rintro unique i j inside inside' before effectId allowed _ allowed' rfl
    have same := unique i j _ _ effectId (List.getElem?_eq_getElem inside)
      (List.getElem?_eq_getElem inside') allowed allowed'
    omega

/-- A thread applies at most one effect. -/
theorem applied_unique {thread : Thread Call.program} {network network' : Nat}
    {effect effect' : NetworkEffect} {draw draw' : Option Str} {id id' : Str}
    (applied : ⟨.apply network effect draw, .ok id⟩ ∈ thread.past)
    (applied' : ⟨.apply network' effect' draw', .ok id'⟩ ∈ thread.past) : effect = effect' := by
  obtain ⟨sink, request, authority, -, -, -, -, written, -⟩ := applied_of_thread applied
  have member := mem_writes.mpr ⟨applied', rfl⟩
  rw [written, List.mem_cons, List.mem_singleton] at member
  rcases member with impossible | same
  · cases impossible
  · cases same
    rfl

section

variable {schedule : Schedule Call.program World} (environment : EnvironmentOnly schedule)
  {world : World} (empty : ∀ network effectId, world.effect network effectId = none)
  {pool : Pool Call.program World}
  (steps : Pool.Steps World.exec schedule (Pool.initial Call.program world) pool)

include steps

/-- An effect is applied under the digits that were drawn for it. -/
theorem applied_drawn {thread : Thread Call.program} (member : thread ∈ pool.threads)
    {network : Nat} {effect : NetworkEffect} {draw : Option Str} {id : Str}
    (applied : ⟨.apply network effect draw, .ok id⟩ ∈ thread.past) :
    ∃ hex, draw = some hex ∧ id = ("net-effect-" : Str) ++ hex := by
  refine Pool.events_hold
    (fun (event : Event system) _ => event = ⟨.apply network effect draw, .ok id⟩ →
      ∃ hex, draw = some hex ∧ id = ("net-effect-" : Str) ++ hex)
    ?_ (fun _ _ _ before => before) (fun _ _ _ _ before => before) steps thread member _ applied rfl
  intro op state same
  obtain ⟨rfl, answered⟩ := Event.mk.inj same
  exact (World.exec_apply state (eq_of_heq answered)).1

include environment

/-- Under the identifier of an effect that was applied there is an effect. -/
theorem applied_present {thread : Thread Call.program} (member : thread ∈ pool.threads)
    {network : Nat} {effect : NetworkEffect} {draw : Option Str} {id : Str}
    (applied : ⟨.apply network effect draw, .ok id⟩ ∈ thread.past) :
    pool.shared.effect network id ≠ none := by
  refine Pool.events_hold
    (fun (event : Event system) state => event = ⟨.apply network effect draw, .ok id⟩ →
      state.effect network id ≠ none)
    ?_ ?_ ?_ steps thread member _ applied rfl
  · intro op state same
    obtain ⟨rfl, answered⟩ := Event.mk.inj same
    rw [(World.exec_apply state (eq_of_heq answered)).2]
    simp [World.effect]
  · intro event op state before same
    exact (World.exec_effect op state).keeps (before same)
  · intro before after allowed event shown same
    rw [(environment _ _ allowed).effect]
    exact shown same

/-- When draws are distinct, the log holds what each thread has applied. -/
theorem applied_recorded (distinct : DistinctDraws pool)
    (empty : ∀ network effectId, world.effect network effectId = none)
    {thread : Thread Call.program} (member : thread ∈ pool.threads)
    {network : Nat} {effect : NetworkEffect} {draw : Option Str} {id : Str}
    (applied : ⟨.apply network effect draw, .ok id⟩ ∈ thread.past) :
    pool.shared.effect network id = some effect := by
  obtain ⟨held, present⟩ :=
    Option.ne_none_iff_exists'.mp (applied_present environment steps member applied)
  obtain ⟨thread', member', draw', applied'⟩ := effect_applied environment steps empty present
  obtain ⟨hex, rfl, rfl⟩ := applied_drawn steps member applied
  obtain ⟨hex', rfl, same⟩ := applied_drawn steps member' applied'
  obtain rfl := List.append_cancel_left same
  obtain ⟨i, found⟩ := List.mem_iff_getElem?.mp member
  obtain ⟨j, found'⟩ := List.mem_iff_getElem?.mp member'
  obtain rfl := distinct i j thread thread' network hex found found' ⟨_, _, applied⟩ ⟨_, _, applied'⟩
  obtain rfl := Option.some.inj (found.symm.trans found')
  rw [present, applied_unique applied' applied]

/-- The identifiers in the log are those of the ALLOW responses. -/
theorem keys_of_allowances (empty : ∀ network effectId, world.effect network effectId = none)
    (network : Nat) : (pool.shared.networks network).effects.keys.image some =
      (allowances pool network).toFinset := by
  ext effectId
  rw [Finset.mem_image, List.mem_toFinset, mem_allowances]
  constructor
  · rintro ⟨id, key, rfl⟩
    obtain ⟨effect, present⟩ := Dict.mem_iff_get.mp (Finmap.mem_keys.mp key)
    obtain ⟨thread, member, draw, applied⟩ := effect_applied environment steps empty present
    exact ⟨thread, member, allowance_iff.mpr ⟨effect, draw, id, rfl, applied⟩⟩
  · rintro ⟨thread, member, allowed⟩
    obtain ⟨effect, draw, id, rfl, applied⟩ := allowance_iff.mp allowed
    refine ⟨id, Finmap.mem_keys.mpr ?_, rfl⟩
    have present := applied_present environment steps member applied
    rwa [World.effect, Ne, Dict.get_eq_none, not_not] at present

end

/-- At every point of every run, the log holds exactly the effects of the ALLOW responses
when, and only when, no network has drawn an identifier twice. -/
theorem effects_kept_iff {schedule : Schedule Call.program World}
    (environment : EnvironmentOnly schedule) {world : World}
    (empty : ∀ network effectId, world.effect network effectId = none)
    {pool : Pool Call.program World}
    (steps : Pool.Steps World.exec schedule (Pool.initial Call.program world) pool) :
    EffectsKept pool ↔ DistinctDraws pool := by
  constructor
  · rintro kept i j first second network hex found found' ⟨effect, id, applied⟩
      ⟨effect', id', applied'⟩
    obtain ⟨_, ⟨⟩, rfl⟩ := applied_drawn steps (List.mem_of_getElem? found) applied
    obtain ⟨_, ⟨⟩, rfl⟩ := applied_drawn steps (List.mem_of_getElem? found') applied'
    exact allowances_nodup.mp (kept.distinct network) i j first second _ found found'
      (allowance_iff.mpr ⟨effect, _, _, rfl, applied⟩)
      (allowance_iff.mpr ⟨effect', _, _, rfl, applied'⟩)
  · intro distinct
    have nodup (network : Nat) : (allowances pool network).Nodup := by
      rw [allowances_nodup]
      intro i j first second effectId found found' allowed allowed'
      obtain ⟨effect, draw, id, rfl, applied⟩ := allowance_iff.mp allowed
      obtain ⟨effect', draw', _, ⟨⟩, applied'⟩ := allowance_iff.mp allowed'
      obtain ⟨hex, rfl, rfl⟩ := applied_drawn steps (List.mem_of_getElem? found) applied
      obtain ⟨hex', rfl, same⟩ := applied_drawn steps (List.mem_of_getElem? found') applied'
      obtain rfl := List.append_cancel_left same
      exact distinct i j first second network hex found found' ⟨_, _, applied⟩ ⟨_, _, applied'⟩
    refine ⟨fun network => ?_, nodup, ?_⟩
    · rw [← List.toFinset_card_of_nodup (nodup network), ← keys_of_allowances environment steps empty,
        Finset.card_image_of_injective _ (Option.some_injective _)]
    · intro thread member network effectId allowed
      obtain ⟨effect, draw, id, rfl, applied⟩ := allowance_iff.mp allowed
      exact ⟨effect, draw, id, rfl, applied,
        applied_recorded environment steps distinct empty member applied⟩

/-- The ALLOW response of a finished call names the effect identifier it has drawn. -/
theorem allowance_turn {sink : NetworkFinalitySink} {request : SinkRequest} {hex : Str}
    {before after : World} {response : SinkVerifyResponse}
    (ran : (sink.verifyAndEffectuate request (some hex)).run World.exec before =
      (.ok response, after)) :
    allowance (Turn.thread Call.program World.exec
        ⟨.verifyAndEffectuate sink request (some hex), before⟩) =
      some (sink.network, some (("net-effect-" : Str) ++ hex)) := by
  obtain ⟨authority, evidence, activation, _, -, ⟨⟩, rfl, -⟩ :=
    NetworkFinalitySink.verifyAndEffectuate_ok.mp ran
  simp [allowance, Turn.outcome, Call.program, ran, ended, Call.allowance,
    NetworkFinalitySink.allow]

end

namespace Reference

/-- The log starts empty. -/
theorem start_effects (network : Nat) (effectId : Str) :
    start.world.effect network effectId = none :=
  (buildReferenceSystem_fresh arguments clock).effects network effectId

/-- Only the second call of the reference run draws an identifier. -/
theorem drawn_second {index : Nat} {thread : Thread (@Call.program .checksum)} {network : Nat}
    {hex : Str} (found : pool.threads[index]? = some thread)
    (draws : @Draws .checksum thread network hex) : index = 1 := by
  obtain ⟨effect, effectId, applied⟩ := draws
  obtain ⟨sink, request, authority, called, -⟩ := @applied_of_thread .checksum _ _ _ _ _ applied
  match index with
  | 0 =>
      obtain rfl := Option.some.inj found
      cases called
  | 1 => rfl
  | index + 2 => cases found

/-- The log of the reference run holds its one effect. -/
theorem effects_kept_reference : @EffectsKept .checksum pool := by
  have steps : Pool.Steps (@World.exec .checksum) (@unrestricted .checksum)
      (Pool.initial _ start.world) pool := history.pool (fun _ _ _ _ => trivial) fun _ _ => id
  apply (@effects_kept_iff .checksum _ (@unrestricted_environment .checksum) _ start_effects _
    steps).mpr
  intro i j first second network hex found found' draws draws'
  rw [drawn_second found draws, drawn_second found' draws']

/-! ### A repeated draw -/

/-- Another candidate for the same effect. -/
def secondArguments : CandidateArguments :=
  { candidateArguments with
    candidateActId := ⟨"net-39f8820b-second", by decide⟩
    nonce := ⟨"C3929177AA801C56", by decide⟩ }

def secondCandidate : NetworkCandidateAct :=
  valueOf (@makeCandidate .checksum secondArguments clock) (by decide +kernel)

def secondDraws : IssueDraws where
  decisionHex := "000000000004"
  evidenceHex := "000000000005"
  authorityHex := "000000000006"
  token := List.replicate 32 8

def secondIssued : Except Exit PEDResult × World :=
  (@ProtectedEnforcementDomain.validateAndIssue .checksum start.ped secondDraws secondCandidate).run
    (@World.exec .checksum) finalWorld

def secondAuthority : NetworkFinalityAuthority :=
  (authorityOf secondIssued.1).get (by decide +kernel)

def secondEffect : ProposedEffect :=
  valueOf (@makeEffect .checksum secondCandidate [] [] [] none) (by decide +kernel)

def secondRequest : SinkRequest where
  requestId := "request-2"
  candidate := secondCandidate
  authority := some secondAuthority
  proposedEffect := secondEffect

/-- The network draws the same digits for the second effect as for the first. -/
def repeatedWorld : World :=
  @NetworkFinalitySink.applied .checksum start.sink secondRequest secondAuthority "0000000001"
    secondIssued.2

def repeatedTurns : List (Turn Call World) :=
  turns ++ [⟨Call.validateAndIssue start.ped secondDraws secondCandidate, finalWorld⟩,
    ⟨Call.verifyAndEffectuate start.sink secondRequest (some "0000000001"), secondIssued.2⟩]

/-- The second request is allowed. -/
theorem secondRequest_allowed : ∃ response,
    (@NetworkFinalitySink.verifyAndEffectuate .checksum start.sink secondRequest
        (some "0000000001")).run (@World.exec .checksum) secondIssued.2 =
      (.ok response, repeatedWorld) := by
  have made : @makeCandidate .checksum secondArguments clock = .ok secondCandidate := by
    rw [secondCandidate]
    exact valueOf_ok _
  have given : secondRequest.candidate = secondCandidate := by simp only [secondRequest]
  have presented : secondRequest.authority = some secondAuthority := by simp only [secondRequest]
  have conforms : @Conforms .checksum secondCandidate secondRequest.proposedEffect := by
    simp only [secondRequest]
    apply @makeEffect_conforms .checksum secondArguments _ _ _ made
    rw [secondEffect]
    exact valueOf_ok _
  have returned : authorityOf secondIssued.1 = some secondAuthority := (Option.some_get _).symm
  obtain ⟨response, allowed, -⟩ := allowed_where_returned (by rw [secondIssued]) returned
    (start_named made rfl rfl) given presented conforms "0000000001"
  exact ⟨response, allowed⟩

theorem repeated_history : History (@Call.program .checksum) (@World.exec .checksum)
    World.Environment start.world repeatedTurns repeatedWorld := by
  obtain ⟨response, allowed⟩ := secondRequest_allowed
  have issuing : History (@Call.program .checksum) (@World.exec .checksum) World.Environment
      start.world (turns ++ [⟨.validateAndIssue start.ped secondDraws secondCandidate, finalWorld⟩])
      secondIssued.2 := by
    apply @history_validateAndIssue .checksum _ _ _ _ _ history
    rw [secondIssued]
  have effecting := @history_verifyAndEffectuate .checksum _ _ _ _ _ issuing start.sink
    secondRequest (some "0000000001") (congrArg Prod.snd allowed)
  rwa [List.append_assoc] at effecting

/-- Two calls are allowed under one identifier, so the log has lost an effect. -/
theorem repeated_draw_loses_effect :
    ∃ pool, Pool.Steps (@World.exec .checksum) (@unrestricted .checksum)
        (Pool.initial _ start.world) pool ∧
      ¬ (@allowances .checksum pool 0).Nodup ∧ ¬ @EffectsKept .checksum pool := by
  have steps : Pool.Steps (@World.exec .checksum) (@unrestricted .checksum)
      (Pool.initial _ start.world) (Turn.pool _ (@World.exec .checksum) repeatedTurns repeatedWorld) :=
    repeated_history.pool (fun _ _ _ _ => trivial) fun _ _ => id
  obtain ⟨response, allowed⟩ := effectuated_response
  obtain ⟨response', allowed'⟩ := secondRequest_allowed
  rw [effectuated] at allowed
  have first := @allowance_turn .checksum _ _ _ _ _ _ allowed
  have second := @allowance_turn .checksum _ _ _ _ _ _ allowed'
  have repeated : ¬ (@allowances .checksum
      (Turn.pool _ (@World.exec .checksum) repeatedTurns repeatedWorld) 0).Nodup := by
    rw [@allowances_nodup .checksum]
    intro unique
    have same : 1 = 3 := unique 1 3 _ _ _ rfl rfl first second
    cases same
  exact ⟨_, steps, repeated, fun kept => repeated (@EffectsKept.distinct .checksum _ kept 0)⟩

end Reference
end NetworkFinality
