import Codel00p.Provider.Transport.Accumulator

/-! Streams of the Responses API, which end with an event that repeats the whole response. -/

namespace Codel00p.Responses

structure ResponsesOutputContent where
  kind : String
  text : Option String := none

structure ResponsesOutputItem where
  kind : String
  id : Option String := none
  status : Option String := none
  content : List ResponsesOutputContent := []
  callId : Option String := none
  name : Option String := none
  arguments : Option String := none

structure ResponsesUsage where
  inputTokens : Option Nat := none
  outputTokens : Option Nat := none
  cachedTokens : Option Nat := none
  reasoningTokens : Option Nat := none

structure ResponsesResponse where
  id : Option String := none
  status : Option String := none
  model : Option String := none
  output : List ResponsesOutputItem := []
  usage : Option ResponsesUsage := none
  /-- The output items once more, as they are written down with all that they hold. -/
  outputData : Json := .array []

def ResponsesUsage.normalize (usage : ResponsesUsage) : Usage where
  inputTokens := usage.inputTokens.getD 0 - usage.cachedTokens.getD 0
  outputTokens := usage.outputTokens.getD 0
  cacheReadTokens := usage.cachedTokens.getD 0
  cacheWriteTokens := 0
  reasoningTokens := usage.reasoningTokens.getD 0

def ResponsesOutputContent.intoText (content : ResponsesOutputContent) : Option String :=
  if content.kind = "output_text" then content.text.filter (!·.isEmpty) else none

def ResponsesOutputItem.outputTextBlocks (item : ResponsesOutputItem) : List String :=
  item.content.filterMap (·.intoText)

/-- A field under its name, unless it is missing. -/
def textField (key : String) : Option String → List (String × Json)
  | some text => [(key, .string text)]
  | none => []

/-- A map with fields put in one after the other. -/
def fieldMap (fields : List (String × Json)) : List (String × Json) :=
  fields.foldl (fun map (key, value) => Assoc.insert key value map) []

def ResponsesOutputItem.normalizeFunctionCall (codec : JsonCodec) (provider : String)
    (item : ResponsesOutputItem) : Except ProviderError ToolCall :=
  match item.callId, item.name with
  | none, _ => .error (.invalidResponse provider "function_call output is missing call_id")
  | some _, none => .error (.invalidResponse provider "function_call output is missing name")
  | some callId, some name =>
    let arguments := item.arguments.getD ""
    .ok { id := some callId, name, arguments := (codec.parse arguments).getD (.string arguments),
          providerData := fieldMap (textField "id" item.id ++ textField "status" item.status) }

/-- The texts of a response in order; texts that are empty do not count. -/
def ResponsesResponse.textBlocks (response : ResponsesResponse) : List String :=
  (response.output.filter (·.kind = "message")).flatMap (·.outputTextBlocks)

/-- A whole response as all providers have it: its texts are joined by line breaks. -/
def ResponsesResponse.normalize (codec : JsonCodec) (provider : String) (response : ResponsesResponse) :
    Except ProviderError InferenceResponse := do
  let toolCalls ← (response.output.filter (·.kind = "function_call")).mapM
    (·.normalizeFunctionCall codec provider)
  return {
    content := if response.textBlocks.isEmpty then none else some ("\n".intercalate response.textBlocks)
    toolCalls
    finishReason := response.status
    usage := response.usage.map (·.normalize)
    providerData := fieldMap (textField "id" response.id ++ textField "model" response.model
      ++ textField "status" response.status ++ [("output", response.outputData)]) }

structure ResponsesStreamEvent where
  kind : String
  delta : Option String := none
  response : Option ResponsesResponse := none

/-- A response that is being put together. -/
structure ResponsesStreamAccumulator where
  text : String := ""
  hasText : Bool := false
  completed : Option ResponsesResponse := none

def ResponsesStreamEvent.isTerminal (event : ResponsesStreamEvent) : Bool :=
  event.kind = "response.completed" || event.kind = "response.incomplete" || event.kind = "response.failed"

def ResponsesStreamAccumulator.ingest (state : ResponsesStreamAccumulator) (event : ResponsesStreamEvent) :
    ResponsesStreamAccumulator × List SinkEvent :=
  if event.kind = "response.output_text.delta" then
    match event.delta with
    | some delta =>
      if delta.isEmpty then (state, [])
      else ({ state with hasText := true, text := state.text ++ delta }, [.token delta])
    | none => (state, [])
  else if event.isTerminal then ({ state with completed := event.response.or state.completed }, [])
  else (state, [])

def ResponsesStreamAccumulator.finish (codec : JsonCodec) (provider : String)
    (state : ResponsesStreamAccumulator) : Except ProviderError InferenceResponse :=
  match state.completed with
  | some response => response.normalize codec provider
  | none => .ok { content := if state.hasText then some state.text else none }

/-- How events are put together. -/
def accumulator (codec : JsonCodec) (provider : String) : Accumulator ResponsesStreamEvent where
  State := ResponsesStreamAccumulator
  initial := {}
  ingest := ResponsesStreamAccumulator.ingest
  finish := ResponsesStreamAccumulator.finish codec provider

end Codel00p.Responses
