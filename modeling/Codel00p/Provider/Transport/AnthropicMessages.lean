import Codel00p.Provider.Transport.Accumulator

/-! Streams of Anthropic messages. -/

namespace Codel00p.AnthropicMessages

structure AnthropicUsage where
  inputTokens : Option Nat := none
  outputTokens : Option Nat := none
  cacheReadInputTokens : Option Nat := none
  cacheCreationInputTokens : Option Nat := none

def AnthropicUsage.normalize (usage : AnthropicUsage) : Usage where
  inputTokens := usage.inputTokens.getD 0
  outputTokens := usage.outputTokens.getD 0
  cacheReadTokens := usage.cacheReadInputTokens.getD 0
  cacheWriteTokens := usage.cacheCreationInputTokens.getD 0
  reasoningTokens := 0

structure AnthropicResponseContentBlock where
  kind : String
  text : Option String := none
  id : Option String := none
  name : Option String := none
  input : Option Json := none

/-- A message that comes as a whole. -/
structure AnthropicMessagesResponse where
  id : Option String := none
  model : Option String := none
  content : List AnthropicResponseContentBlock := []
  stopReason : Option String := none
  usage : Option AnthropicUsage := none

def AnthropicResponseContentBlock.normalizeToolUse (provider : String) (block : AnthropicResponseContentBlock) :
    Except ProviderError ToolCall := do
  let some id := block.id | .error (.invalidResponse provider "tool_use block is missing id")
  let some name := block.name | .error (.invalidResponse provider "tool_use block is missing name")
  return { id := some id, name, arguments := block.input.getD (.object []) }

def AnthropicMessagesResponse.textBlocks (response : AnthropicMessagesResponse) : List String :=
  response.content.filterMap fun block =>
    if block.kind = "text" then block.text.filter (!·.isEmpty) else none

def AnthropicMessagesResponse.normalize (provider : String) (response : AnthropicMessagesResponse) :
    Except ProviderError InferenceResponse := do
  let toolCalls ← (response.content.filter (·.kind = "tool_use")).mapM (·.normalizeToolUse provider)
  return { content := if response.textBlocks.isEmpty then none else some ("\n".intercalate response.textBlocks)
           toolCalls
           finishReason := response.stopReason
           usage := response.usage.map (·.normalize)
           providerData := (response.id.map fun id => ("id", Json.string id)).toList
             ++ (response.model.map fun model => ("model", Json.string model)).toList }

structure AnthropicStreamContentBlock where
  kind : String
  id : Option String := none
  name : Option String := none

/-- What an event adds. -/
structure AnthropicStreamDelta where
  text : Option String := none
  partialJson : Option String := none
  stopReason : Option String := none

structure AnthropicStreamEvent where
  kind : String
  messageUsage : Option AnthropicUsage := none
  index : Option Nat := none
  contentBlock : Option AnthropicStreamContentBlock := none
  delta : Option AnthropicStreamDelta := none
  usage : Option AnthropicUsage := none

/-- A tool call that is being put together. -/
structure AnthropicStreamToolCall where
  id : Option String := none
  name : String := ""
  arguments : String := ""

/-- A response that is being put together. -/
structure AnthropicStreamAccumulator where
  content : String := ""
  hasContent : Bool := false
  toolCalls : List (Nat × AnthropicStreamToolCall) := []
  finishReason : Option String := none
  inputTokens : Nat := 0
  outputTokens : Nat := 0
  cacheReadTokens : Nat := 0
  cacheWriteTokens : Nat := 0
  sawUsage : Bool := false

namespace AnthropicStreamAccumulator

variable (state : AnthropicStreamAccumulator)

/-- Counters that are sent replace those before. -/
def mergeUsage (usage : AnthropicUsage) : AnthropicStreamAccumulator :=
  { state with
    sawUsage := true
    inputTokens := usage.inputTokens.getD state.inputTokens
    outputTokens := usage.outputTokens.getD state.outputTokens
    cacheReadTokens := usage.cacheReadInputTokens.getD state.cacheReadTokens
    cacheWriteTokens := usage.cacheCreationInputTokens.getD state.cacheWriteTokens }

def openBlock (index : Option Nat) (block : Option AnthropicStreamContentBlock) :
    AnthropicStreamAccumulator × List SinkEvent :=
  match index, block with
  | some index, some block =>
    if block.kind = "tool_use" then
      let name := block.name.getD ""
      ({ state with toolCalls := Assoc.insert index { id := block.id, name } state.toolCalls },
        [.toolCallDelta index block.id (some name) ""])
    else (state, [])
  | _, _ => (state, [])

def addText (text : Option String) : AnthropicStreamAccumulator × List SinkEvent :=
  match text with
  | some text =>
    if text.isEmpty then (state, [])
    else ({ state with hasContent := true, content := state.content ++ text }, [.token text])
  | none => (state, [])

def addJson (index : Option Nat) (partialJson : Option String) : AnthropicStreamAccumulator × List SinkEvent :=
  match index, partialJson with
  | some index, some fragment =>
    match state.toolCalls.lookup index with
    | some slot =>
      ({ state with
          toolCalls := Assoc.insert index { slot with arguments := slot.arguments ++ fragment } state.toolCalls },
        [.toolCallDelta index slot.id none fragment])
    | none => (state, [])
  | _, _ => (state, [])

/-- Take an event. -/
def ingest (event : AnthropicStreamEvent) : AnthropicStreamAccumulator × List SinkEvent :=
  match event.kind with
  | "message_start" =>
    match event.messageUsage with
    | some usage => (state.mergeUsage usage, [])
    | none => (state, [])
  | "content_block_start" => state.openBlock event.index event.contentBlock
  | "content_block_delta" =>
    match event.delta with
    | some delta =>
      let (state, tokens) := state.addText delta.text
      let (state, deltas) := state.addJson event.index delta.partialJson
      (state, tokens ++ deltas)
    | none => (state, [])
  | "message_delta" =>
    let state := { state with finishReason := (event.delta.bind (·.stopReason)).or state.finishReason }
    match event.usage with
    | some usage => (state.mergeUsage usage, [])
    | none => (state, [])
  | _ => (state, [])

/-- Put the response together. -/
def finish (codec : JsonCodec) : InferenceResponse where
  content := if state.hasContent then some state.content else none
  toolCalls := ((state.toolCalls.map (·.2)).filter fun call => !call.name.isEmpty).map fun call =>
    { id := call.id, name := call.name,
      arguments := if call.arguments.isEmpty then .object []
        else (codec.parse call.arguments).getD (.string call.arguments) }
  finishReason := state.finishReason
  usage := if state.sawUsage then
      some { inputTokens := state.inputTokens, outputTokens := state.outputTokens,
             cacheReadTokens := state.cacheReadTokens, cacheWriteTokens := state.cacheWriteTokens }
    else none

end AnthropicStreamAccumulator

/-- How events are put together. -/
def accumulator (codec : JsonCodec) : Accumulator AnthropicStreamEvent where
  State := AnthropicStreamAccumulator
  initial := {}
  ingest := AnthropicStreamAccumulator.ingest
  finish state := .ok (state.finish codec)

end Codel00p.AnthropicMessages
