import Codel00p.Provider.Transport.Accumulator

/-! Streams of Gemini responses. -/

namespace Codel00p.Gemini

structure GeminiResponseFunctionCall where
  id : Option String := none
  name : String
  args : Option Json := none

inductive GeminiResponsePart where
  | text (text : String)
  | functionCall (functionCall : GeminiResponseFunctionCall)
  | other

structure GeminiCandidate where
  parts : List GeminiResponsePart := []
  finishReason : Option String := none

structure GeminiUsageMetadata where
  promptTokenCount : Option Nat := none
  cachedContentTokenCount : Option Nat := none
  candidatesTokenCount : Option Nat := none
  thoughtsTokenCount : Option Nat := none

/-- A response, of which a stream has many. -/
structure GeminiResponse where
  candidates : List GeminiCandidate := []
  usageMetadata : Option GeminiUsageMetadata := none

def GeminiUsageMetadata.normalize (usage : GeminiUsageMetadata) : Usage where
  inputTokens := usage.promptTokenCount.getD 0 - usage.cachedContentTokenCount.getD 0
  outputTokens := usage.candidatesTokenCount.getD 0
  cacheReadTokens := usage.cachedContentTokenCount.getD 0
  cacheWriteTokens := 0
  reasoningTokens := usage.thoughtsTokenCount.getD 0

def GeminiResponseFunctionCall.normalize (call : GeminiResponseFunctionCall) : ToolCall where
  id := call.id
  name := call.name
  arguments := call.args.getD (.object [])

/-- A response that is being put together. -/
structure GeminiStreamAccumulator where
  content : String := ""
  hasContent : Bool := false
  toolCalls : List ToolCall := []
  finishReason : Option String := none
  usage : Option Usage := none

def GeminiStreamAccumulator.ingestPart (codec : JsonCodec) (state : GeminiStreamAccumulator) :
    GeminiResponsePart → GeminiStreamAccumulator × List SinkEvent
  | .text text =>
    if text.isEmpty then (state, [])
    else ({ state with hasContent := true, content := state.content ++ text }, [.token text])
  | .functionCall functionCall =>
    let call := functionCall.normalize
    let argsFragment := match call.arguments with
      | .string text => text
      | other => codec.render other
    ({ state with toolCalls := state.toolCalls ++ [call] },
      [.toolCallDelta state.toolCalls.length call.id (some call.name) argsFragment])
  | .other => (state, [])

def GeminiStreamAccumulator.ingestParts (codec : JsonCodec) :
    GeminiStreamAccumulator → List GeminiResponsePart → GeminiStreamAccumulator × List SinkEvent
  | state, [] => (state, [])
  | state, part :: parts =>
    let (taken, events) := state.ingestPart codec part
    let (reached, more) := ingestParts codec taken parts
    (reached, events ++ more)

/-- Take a response; only its first candidate counts. -/
def GeminiStreamAccumulator.ingest (codec : JsonCodec) (state : GeminiStreamAccumulator)
    (chunk : GeminiResponse) : GeminiStreamAccumulator × List SinkEvent :=
  let state := { state with usage := (chunk.usageMetadata.map (·.normalize)).or state.usage }
  match chunk.candidates.head? with
  | none => (state, [])
  | some candidate =>
    ingestParts codec { state with finishReason := candidate.finishReason.or state.finishReason }
      candidate.parts

/-- Put the response together. -/
def GeminiStreamAccumulator.finish (state : GeminiStreamAccumulator) : InferenceResponse where
  content := if state.hasContent then some state.content else none
  toolCalls := state.toolCalls
  finishReason := state.finishReason
  usage := state.usage

/-- How responses are put together. -/
def accumulator (codec : JsonCodec) : Accumulator GeminiResponse where
  State := GeminiStreamAccumulator
  initial := {}
  ingest := GeminiStreamAccumulator.ingest codec
  finish state := .ok state.finish

end Codel00p.Gemini
