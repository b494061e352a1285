import Codel00p.Provider.Transport.Accumulator

/-! Streams of chat completions, of OpenAI-compatible providers and of Azure. -/

namespace Codel00p.ChatCompletions

structure ChatUsage where
  promptTokens : Option Nat := none
  completionTokens : Option Nat := none
  cachedTokens : Option Nat := none
  reasoningTokens : Option Nat := none

def ChatUsage.normalize (usage : ChatUsage) : Usage where
  inputTokens := usage.promptTokens.getD 0 - usage.cachedTokens.getD 0
  outputTokens := usage.completionTokens.getD 0
  cacheReadTokens := usage.cachedTokens.getD 0
  cacheWriteTokens := 0
  reasoningTokens := usage.reasoningTokens.getD 0

structure ChatStreamToolCallFunction where
  name : Option String := none
  arguments : Option String := none

structure ChatStreamToolCall where
  index : Option Nat := none
  id : Option String := none
  function : Option ChatStreamToolCallFunction := none

/-- What a chunk adds to a message. -/
structure ChatStreamDelta where
  content : Option String := none
  toolCalls : List ChatStreamToolCall := []

structure ChatStreamChoice where
  delta : ChatStreamDelta := {}
  finishReason : Option String := none

structure ChatCompletionsStreamChunk where
  choices : List ChatStreamChoice := []
  usage : Option ChatUsage := none

/-- A tool call that is being put together. -/
structure StreamingToolCall where
  id : Option String := none
  name : String := ""
  arguments : String := ""

/-- A response that is being put together. -/
structure StreamingAccumulator where
  content : String := ""
  hasContent : Bool := false
  finishReason : Option String := none
  usage : Option Usage := none
  toolCalls : List StreamingToolCall := []

def withSlot (toolCalls : List StreamingToolCall) (index : Nat) : List StreamingToolCall :=
  if index < toolCalls.length then toolCalls
  else toolCalls ++ List.replicate (index + 1 - toolCalls.length) ({} : StreamingToolCall)

def StreamingToolCall.add (slot : StreamingToolCall) (delta : ChatStreamToolCall) : StreamingToolCall where
  id := delta.id.or slot.id
  name := slot.name ++ (delta.function.bind (·.name)).getD ""
  arguments := slot.arguments ++ (delta.function.bind (·.arguments)).getD ""

def ingestToolCall (toolCalls : List StreamingToolCall) (delta : ChatStreamToolCall) :
    List StreamingToolCall × SinkEvent :=
  let index := delta.index.getD 0
  let slots := withSlot toolCalls index
  let slot := (slots.getD index {}).add delta
  (slots.set index slot,
    .toolCallDelta index slot.id (delta.function.bind (·.name))
      ((delta.function.bind (·.arguments)).getD ""))

/-- Add parts of tool calls one after the other. -/
def ingestToolCalls : List StreamingToolCall → List ChatStreamToolCall → List StreamingToolCall × List SinkEvent
  | toolCalls, [] => (toolCalls, [])
  | toolCalls, delta :: deltas =>
    let (added, event) := ingestToolCall toolCalls delta
    let (reached, events) := ingestToolCalls added deltas
    (reached, event :: events)

/-- Take a chunk; only its first choice counts. -/
def StreamingAccumulator.ingest (state : StreamingAccumulator) (chunk : ChatCompletionsStreamChunk) :
    StreamingAccumulator × List SinkEvent :=
  let state := { state with usage := (chunk.usage.map (·.normalize)).or state.usage }
  match chunk.choices.head? with
  | none => (state, [])
  | some choice =>
    let state := { state with finishReason := choice.finishReason.or state.finishReason }
    let (state, tokens) := match choice.delta.content with
      | some delta =>
        if delta.isEmpty then (state, [])
        else ({ state with hasContent := true, content := state.content ++ delta }, [SinkEvent.token delta])
      | none => (state, [])
    let (toolCalls, deltas) := ingestToolCalls state.toolCalls choice.delta.toolCalls
    ({ state with toolCalls }, tokens ++ deltas)

def parseArguments (codec : JsonCodec) (arguments : String) : Json := (codec.parse arguments).getD (.string arguments)

/-- Put the response together. -/
def StreamingAccumulator.finish (codec : JsonCodec) (provider : String) (state : StreamingAccumulator) :
    Except ProviderError InferenceResponse :=
  let toolCalls := (state.toolCalls.filter fun call => !call.name.isEmpty).map fun call =>
    { id := call.id, name := call.name, arguments := parseArguments codec call.arguments : ToolCall }
  if !state.hasContent && toolCalls.isEmpty && state.finishReason.isNone then
    .error (.invalidResponse provider "stream produced no events")
  else
    .ok { content := if state.hasContent then some state.content else none, toolCalls,
          finishReason := state.finishReason, usage := state.usage }

/-- How chunks are put together. -/
def accumulator (codec : JsonCodec) (provider : String) : Accumulator ChatCompletionsStreamChunk where
  State := StreamingAccumulator
  initial := {}
  ingest := StreamingAccumulator.ingest
  finish := StreamingAccumulator.finish codec provider

end Codel00p.ChatCompletions
