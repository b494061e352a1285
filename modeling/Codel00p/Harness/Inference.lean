import Codel00p.Harness.Agent

/-! One inference of a turn: building the request, asking the model, and accounting for the answer. -/

namespace Codel00p.AgentHarness

variable {ω : Type} (harness : AgentHarness ω) (turnId : String)

/-- The block that tells the agent about itself, if it is made self-aware. -/
def selfBlock (iteration : Nat) : TurnM ω (Option String) := do
  match harness.describeSelf with
  | none => return none
  | some describe =>
    let usage ← Program.reads (·.usage)
    let contextWindowTokens := harness.contextWindow.map (·.contextLimitTokens)
    withHost (describe { iteration, maxIterations := harness.maxIterations, usage, contextWindowTokens })

/-- A selected source counts only if it has parts. -/
def nonEmpty (source : PromptSource) : Option PromptSource :=
  if source.names.isEmpty then none else some source

def consult (provider : Option (TurnLifecycleContext → String → ω → Except HarnessError PromptSource × ω)) :
    TurnM ω (Option PromptSource) := do
  match provider with
  | none => return none
  | some provider =>
    let context ← lifecycleContext turnId
    let latest ← Program.reads fun state => latestUserMessage state.session.messages
    let source ← orFail (← withHost (provider context latest))
    return nonEmpty source

def workspaceBlock : TurnM ω (Option String) := do
  match harness.gatherWorkspace with
  | none => return none
  | some gather =>
    let executed ← Program.reads (·.executed)
    withHost (gather executed)

/-- Put the request for the next inference together. -/
def buildRequest (iteration : Nat) : TurnM ω HarnessInferenceRequest := do
  let agentSelf ← harness.selfBlock iteration
  let instructions ← orFail (← withHost harness.loadInstructions)
  let projectMemory ← consult turnId harness.retrieveMemory
  let skills ← consult turnId harness.selectSkills
  let workspaceContext ← harness.workspaceBlock
  let session ← Program.reads (·.session)
  return {
    session, agentSelf, projectMemory, skills, workspaceContext,
    projectInstructions := nonEmpty instructions,
    workspaceRoot := harness.workspaceRoot,
    tools := harness.tools.advertisedSpecs,
    toolChoice := harness.toolChoice,
    responseFormat := harness.responseFormat,
    contextWindow := harness.contextWindow,
    persona := harness.persona,
    curatedMemory := harness.curatedMemory,
    basePrompt := harness.basePrompt }

def manifest (request : HarnessInferenceRequest) : EventKind :=
  let names := fun (source : Option PromptSource) => (source.map (·.names)).getD []
  .contextManifest (names request.projectInstructions)
    ((names request.projectMemory).mergeSort (fun a b => a ≤ b))
    ((request.tools.map (·.name)).mergeSort (fun a b => a ≤ b))
    ((names request.skills).mergeSort (fun a b => a ≤ b)) request.session.messages.length

def accountUsage (reply : HarnessInferenceResponse) : TurnM ω Unit :=
  Program.change fun state => { state with
    usage := match reply.usage with
      | some usage => some ((state.usage.getD {}).add usage)
      | none => state.usage,
    cost := match reply.cost with
      | some cost => some ((state.cost.getD {}).add cost)
      | none => state.cost }

def salvage (reply : HarnessInferenceResponse) : Option ModelToolCall :=
  if reply.toolCalls.isEmpty then
    reply.assistantMessage.bind fun text => salvageToolCall harness.codec text harness.tools.names
  else none

def effectiveCalls (reply : HarnessInferenceResponse) : List ModelToolCall :=
  match harness.salvage reply with
  | some call => [call]
  | none => reply.toolCalls

def askModel (request : HarnessInferenceRequest) : TurnM ω HarnessInferenceResponse := do
  harness.recordEvent turnId (manifest request)
  Program.change (·.note (.asked request))
  let reply ← orFail (← withHost (harness.infer request))
  Program.change (·.note (.replied reply (harness.salvage reply)))
  harness.recordEvent turnId (.inferenceRequested reply.provider reply.model)
  accountUsage reply
  harness.recordEvent turnId (.inferenceCompleted reply.finishReason reply.usage reply.cost)
  return reply

end Codel00p.AgentHarness
