import Codel00p.Harness.Agent
import Codel00p.Provider.Response

/-! What the provider is sent: system blocks, and the session translated message by message. -/

namespace Codel00p

/-- Provider-neutral chat message role. -/
inductive MessageRole where
  | system
  | developer
  | user
  | assistant
  | tool
  deriving DecidableEq, Repr

structure ProviderToolCall where
  id : Option String
  name : String
  arguments : Json

structure ChatMessage where
  role : MessageRole
  content : Option String
  toolCallId : Option String := none
  toolCalls : List ProviderToolCall := []

namespace ChatMessage

def system (content : String) : ChatMessage := { role := .system, content := some content }

def user (content : String) : ChatMessage := { role := .user, content := some content }

/-- A text of the model. -/
def assistant (content : String) : ChatMessage := { role := .assistant, content := some content }

def assistantToolCalls (toolCalls : List ProviderToolCall) : ChatMessage :=
  { role := .assistant, content := none, toolCalls }

def toolResult (toolCallId content : String) : ChatMessage :=
  { role := .tool, content := some content, toolCallId := some toolCallId }

end ChatMessage

structure InferenceRequest where
  provider : String
  model : String
  messages : List ChatMessage
  tools : List ToolSpec := []
  toolChoice : Option Json := none
  responseFormat : Option Json := none

def mapToolCall (call : ModelToolCall) : ProviderToolCall :=
  { id := some call.id, name := call.name, arguments := call.input }

def mapSessionMessage (message : SessionMessage) : ChatMessage :=
  match message.role with
  | .system => .system message.content
  | .user => .user message.content
  | .assistant =>
    if message.toolCalls.isEmpty then .assistant message.content
    else .assistantToolCalls (message.toolCalls.map mapToolCall)
  | .tool => .toolResult (message.toolCallId.getD "") message.content

/-- The texts put before the session, from who the agent is to the state of its workspace. -/
def systemBlocks (request : HarnessInferenceRequest) : List String :=
  request.persona.toList ++ request.agentSelf.toList ++ request.curatedMemory.toList
    ++ request.basePrompt.toList
    ++ (request.projectInstructions.map fun source => source.prompt.getD "").toList
    ++ (request.projectMemory.bind (·.prompt)).toList
    ++ (request.skills.bind (·.prompt)).toList
    ++ request.workspaceContext.toList

/-- Put the provider's request together. -/
def buildProviderRequest (provider model : String) (request : HarnessInferenceRequest) :
    InferenceRequest :=
  { provider, model,
    messages := (systemBlocks request).map .system ++ request.session.messages.map mapSessionMessage,
    tools := request.tools,
    toolChoice := request.toolChoice,
    responseFormat := request.responseFormat }

/-- Usage as the protocol counts it. -/
def mapUsage (usage : Usage) : TokenUsage :=
  { inputTokens := usage.inputTokens, outputTokens := usage.outputTokens,
    cacheReadTokens := usage.cacheReadTokens, cacheWriteTokens := usage.cacheWriteTokens,
    reasoningTokens := usage.reasoningTokens }

/-- A cost as the protocol states it. -/
def mapCost (cost : UsageCostEstimate) : CostEstimate := { currency := cost.currency, totalNanos := cost.totalNanos }

def mapProviderResponse (provider model : String) (response : InferenceResponse) : HarnessInferenceResponse :=
  { provider, model,
    assistantMessage := response.content,
    toolCalls := response.toolCalls.mapIdx fun index call =>
      { id := call.id.getD ("provider-tool-call-" ++ toString index), name := call.name, input := call.arguments },
    finishReason := response.finishReason,
    usage := response.usage.map mapUsage,
    cost := response.cost.map mapCost }

structure ProviderModelClient (ω : Type) where
  provider : String
  model : String
  complete : InferenceRequest → ω → Except String InferenceResponse × ω

variable {ω : Type}

def ProviderModelClient.mapResponse (client : ProviderModelClient ω) : InferenceResponse → HarnessInferenceResponse :=
  mapProviderResponse client.provider client.model

def ProviderModelClient.infer (client : ProviderModelClient ω) (request : HarnessInferenceRequest) (host : ω) :
    Except HarnessError HarnessInferenceResponse × ω :=
  match client.complete (buildProviderRequest client.provider client.model request) host with
  | (.ok response, host) => (.ok (client.mapResponse response), host)
  | (.error message, host) => (.error (.inferenceFailed message), host)

end Codel00p
