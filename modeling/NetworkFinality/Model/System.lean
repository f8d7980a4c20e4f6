import NetworkFinality.Semantics.Serial
import NetworkFinality.Model.Sink

/-!
# The system of calls

Domains and sinks work on one world by their calls. `Call.program` is what a call
performs, so that a pool of calls interleaves them and a history runs them one
after the other. The environment may set the clock and the protected state, and
writes nothing else.
-/

namespace NetworkFinality

open Python Semantics

/-- A call with its arguments and random draws. -/
inductive Call where
  | validateAndIssue (ped : ProtectedEnforcementDomain) (draws : IssueDraws)
      (candidate : NetworkCandidateAct)
  | verifyAndEffectuate (sink : NetworkFinalitySink) (request : SinkRequest) (draw : Option Str)

namespace Call

@[reducible] def Result : Call → Type
  | .validateAndIssue .. => PEDResult
  | .verifyAndEffectuate .. => SinkVerifyResponse

/-- What a call performs. -/
def program [Hashlib] : (call : Call) → Program call.Result
  | .validateAndIssue ped draws candidate => ped.validateAndIssue draws candidate
  | .verifyAndEffectuate sink request draw => sink.verifyAndEffectuate request draw

/-- The candidate a call is given. -/
def candidate : Call → NetworkCandidateAct
  | .validateAndIssue _ _ candidate => candidate
  | .verifyAndEffectuate _ request _ => request.candidate

/-- The authority a call is given. -/
def presented : Call → Option NetworkFinalityAuthority
  | .validateAndIssue .. => none
  | .verifyAndEffectuate _ request _ => request.authority

/-- The authority a result carries. -/
def returned : (call : Call) → call.Result → Option NetworkFinalityAuthority
  | .validateAndIssue .., result => result.authority
  | .verifyAndEffectuate .., _ => none

/-- The identifier under which a call commits evidence. -/
def evidenceId : Call → Option Str
  | .validateAndIssue _ draws _ => some draws.evidenceId
  | .verifyAndEffectuate .. => none

end Call

/-- A step of the environment: it may set the clock and the protected state. -/
structure World.Environment (before after : World) : Prop where
  nonceRegistry : after.nonceRegistry = before.nonceRegistry
  evidenceStore : after.evidenceStore = before.evidenceStore
  activationStore : after.activationStore = before.activationStore
  networks : after.networks = before.networks

section

variable [Hashlib] {changes : World → World → Prop} {initial world after : World}
  {turns : List (Turn Call World)}
  (history : History Call.program World.exec changes initial turns world)

include history

/-- A history goes on with a run of `validateAndIssue`. -/
theorem history_validateAndIssue {ped : ProtectedEnforcementDomain} {draws : IssueDraws}
    {candidate : NetworkCandidateAct}
    (ran : ((ped.validateAndIssue draws candidate).run World.exec world).2 = after) :
    History Call.program World.exec changes initial
      (turns ++ [⟨.validateAndIssue ped draws candidate, world⟩]) after := by
  rw [← ran]
  exact history.call (.validateAndIssue ped draws candidate)

/-- A history goes on with a run of `verifyAndEffectuate`. -/
theorem history_verifyAndEffectuate {sink : NetworkFinalitySink} {request : SinkRequest}
    {draw : Option Str}
    (ran : ((sink.verifyAndEffectuate request draw).run World.exec world).2 = after) :
    History Call.program World.exec changes initial
      (turns ++ [⟨.verifyAndEffectuate sink request draw, world⟩]) after := by
  rw [← ran]
  exact history.call (.verifyAndEffectuate sink request draw)

end

end NetworkFinality
