import NetworkFinality.Model.Engine

/-!
# The benchmark

`scripts/benchmark.py` builds the reference system on memory stores and presents one candidate
after the other: each is issued an authority and then effectuated. It stops with an exception
when a candidate or a request is denied. The clock is read three times in an iteration, for the
candidate, by the domain and by the sink; what is drawn in between is an input as well. The
measured times decide nothing and are left out.
-/

namespace NetworkFinality

open Python Semantics Procedure

/-- `f"{value:0{width}d}"` of a number that is not negative. -/
def zeroPadded (width value : Nat) : Except PyError Str := do
  let text ← intText value
  return List.replicate (width - text.length) (.scalar '0') ++ text

/-- What one iteration reads from the clock and draws. -/
structure Iteration where
  created : DateTime
  validated : DateTime
  verified : DateTime
  draws : IssueDraws
  effectHex : Str

/-- How the benchmark stops early. -/
inductive BenchmarkError where
  | exception (reason : Exit)
  | candidateDenied
  | sinkDenied (code : Str) (message : Option Str)

/-- Continue with a result, or stop with its exception. -/
def orStop {α : Type} (outcome : Except PyError α) : Except BenchmarkError α :=
  outcome.mapError fun error => .exception (.raised error)

/-- Continue with the world of a permitted effectuation. -/
def permittedOrStop : Except Exit SinkVerifyResponse × World → Except BenchmarkError World
  | (.ok response, world) =>
      if response.effectuationPermitted then .ok world
      else .error (.sinkDenied response.code response.message)
  | (.error (.denied response), _) => .error (.sinkDenied response.code response.message)
  | (.error (.raised error), _) => .error (.exception (.raised error))

/-- The arguments of `make_candidate`, with their defaults but for these. -/
def benchmarkArguments (candidateActId nonce : MinStr 16) (sequence : Nat) : CandidateArguments :=
  { Reference.candidateArguments with
    candidateActId := candidateActId
    nonce := nonce
    sequence := sequence }

section

variable [Hashlib]

/-- The candidate of an iteration, with its own identifier and nonce. -/
def benchmarkCandidate (index : Nat) (now : DateTime) : Except PyError NetworkCandidateAct := do
  let actIndex ← zeroPadded 8 index
  let nonceIndex ← zeroPadded 10 index
  let candidateActId ← MinStr.validate 16 (("bench-candidate-" : Str) ++ actIndex)
  let nonce ← MinStr.validate 16 (("BENCHNONCE" : Str) ++ nonceIndex)
  makeCandidate (benchmarkArguments candidateActId nonce index) now

/-- Present an issued authority to the sink. -/
def benchmarkSink (sink : NetworkFinalitySink) (index : Nat) (candidate : NetworkCandidateAct)
    (effect : ProposedEffect) (authority : NetworkFinalityAuthority) (hex : Str) (world : World) :
    Except BenchmarkError World := do
  let requestIndex ← orStop (intText index)
  permittedOrStop ((sink.verifyAndEffectuate {
    requestId := ("bench-" : Str) ++ requestIndex
    candidate := candidate
    authority := some authority
    proposedEffect := effect } (some hex)).run World.exec world)

/-- One pass of the loop. -/
def benchmarkIteration (system : ReferenceSystem) (index : Nat) (iteration : Iteration)
    (world : World) : Except BenchmarkError World := do
  let candidate ← orStop (benchmarkCandidate index iteration.created)
  let effect ← orStop (makeEffect candidate [] [] [] none)
  match (system.ped.validateAndIssue iteration.draws candidate).run World.exec
      { world with clock := iteration.validated } with
  | (.error reason, _) => .error (.exception reason)
  | (.ok ⟨_, none⟩, _) => .error .candidateDenied
  | (.ok ⟨_, some authority⟩, issued) =>
      benchmarkSink system.sink index candidate effect authority iteration.effectHex
        { issued with clock := iteration.verified }

/-- The loop, from an index on. -/
def benchmarkFrom (system : ReferenceSystem) : Nat → List Iteration → World →
    Except BenchmarkError World
  | _, [], world => .ok world
  | index, iteration :: iterations, world => do
      let world ← benchmarkIteration system index iteration world
      benchmarkFrom system (index + 1) iterations world

/-- The system that is measured. -/
abbrev benchmarkSystem (signer : Signer) (verifier : Verifier) (clock : DateTime) :
    ReferenceSystem :=
  buildReferenceSystem { signer := signer, verifier := verifier } .memory clock

/-- The benchmark, with as many iterations as inputs. -/
def benchmark (signer : Signer) (verifier : Verifier) (clock : DateTime)
    (iterations : List Iteration) : Except BenchmarkError World :=
  let system := benchmarkSystem signer verifier clock
  benchmarkFrom system 0 iterations system.world

end

end NetworkFinality
