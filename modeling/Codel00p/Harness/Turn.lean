import Codel00p.Harness.Inference
import Codel00p.Harness.ToolLoop
import Codel00p.Harness.Verify

/-! The turn loop: inference after inference until the model is done, cancelled, or out of budget. -/

namespace Codel00p.AgentHarness

open Program (reads change exec)

variable {ω : Type} (harness : AgentHarness ω) (turnId : String)

def closeTurn (iterations : Nat) (assistantMessage : Option String) (verified : Option Bool)
    (cancelled : Bool) : TurnM ω TurnOutcome := do
  harness.runLifecycleHook turnId .turnCompleted
  let (usage, cost) ← reads fun state => (state.usage, state.cost)
  harness.recordEvent turnId (.turnCompleted iterations usage cost verified)
  reads fun state =>
    { assistantMessage, cancelled, toolCalls := state.executed, events := state.events,
      session := state.session }

/-- Finalize a turn that stopped early because cancellation was requested. -/
def finishCancelled (iterations : Nat) : TurnM ω TurnOutcome := harness.closeTurn turnId iterations none none true

/-- Finalize a turn the model is done with: extractors run first. -/
def completeTurn (iterations : Nat) (assistantMessage : Option String) (verified : Option Bool) :
    TurnM ω TurnOutcome := do
  let context ← lifecycleContext turnId
  let completed ← reads fun state =>
    { context, assistantMessage, goal := latestUserMessage state.session.messages,
      calls := state.executed : CompletedTurn }
  harness.postTurnStages.forM (harness.runPostTurnStage turnId completed)
  harness.closeTurn turnId iterations assistantMessage verified false

/-- Report what the model made of the self-critique, if it was just asked to reflect. -/
def noteCritique (producedToolCalls : Bool) : TurnM ω PUnit := do
  let pending ← reads (·.verify.critiquePending)
  if pending then
    change fun state =>
      { state with verify := { state.verify with critiquePending := false } }
    harness.recordEvent turnId (.selfCritiqueCompleted producedToolCalls)
  else pure ()

/-- Add the text of a reply to the session, if it has one. -/
def sayReply (reply : HarnessInferenceResponse) : TurnM ω Unit :=
  match reply.assistantMessage with
  | some content => change (·.push (.assistant content))
  | none => pure ()

def finishReply (iteration : Nat) (reply : HarnessInferenceResponse) :
    TurnM ω (Option TurnOutcome) := do
  sayReply reply
  harness.noteCritique turnId false
  match ← harness.verifyBeforeDone turnId with
  | .continue => return none
  | .complete verified =>
    let outcome ← harness.completeTurn turnId iteration reply.assistantMessage verified
    return some outcome

def actOnCalls (iteration : Nat) (calls : List ModelToolCall) : TurnM ω (Option TurnOutcome) := do
  if ← withHost harness.isCancelled then
    let outcome ← harness.finishCancelled turnId iteration
    return some outcome
  else
    harness.noteCritique turnId true
    change (·.push (.assistantToolCalls calls))
    harness.runToolCalls turnId calls
    return none

def runIteration (iteration : Nat) : TurnM ω (Option TurnOutcome) := do
  if ← withHost harness.isCancelled then
    let outcome ← harness.finishCancelled turnId (iteration - 1)
    return some outcome
  else
    harness.runLifecycleHook turnId .preInference
    let request ← harness.buildRequest turnId iteration
    let reply ← harness.askModel turnId request
    match harness.effectiveCalls reply with
    | [] => harness.finishReply turnId iteration reply
    | call :: calls => harness.actOnCalls turnId iteration (call :: calls)

/-- Iterations until one of them ends the turn or the budget is used up. -/
def runIterations : Nat → TurnM ω TurnOutcome
  | 0 => throw (.failed (.iterationLimit harness.maxIterations))
  | remaining + 1 => do
    match ← harness.runIteration turnId (harness.maxIterations - remaining) with
    | some outcome => return outcome
    | none => runIterations remaining

def runTurn (userMessage : String) : TurnM ω TurnOutcome := do
  harness.recordEvent turnId .turnStarted
  change (·.push (.user userMessage))
  harness.runLifecycleHook turnId .turnStarted
  harness.compactContextIfNeeded turnId
  let count ← reads (·.session.messages.length)
  harness.recordEvent turnId (.contextBuilt count)
  harness.runIterations turnId harness.maxIterations

def runTurnWithState (session : SessionState) (userMessage : String) (host : ω) :
    Except TurnStop TurnOutcome × TurnState ω :=
  exec (harness.runTurn turnId userMessage) { world := { host }, session }

end Codel00p.AgentHarness
