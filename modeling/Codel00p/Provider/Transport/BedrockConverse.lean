import Codel00p.Provider.Transport.Accumulator

/-! Streams of Bedrock Converse: frames of the Amazon event stream, and the events that they carry. -/

namespace Codel00p.BedrockConverse

structure DecodedFrame where
  eventType : Option String
  payload : List UInt8
  consumed : Nat

/-- A number of bytes, the first of which counts most. -/
def fromBeBytes (bytes : List UInt8) : Nat := bytes.foldl (fun value byte => value * 256 + byte.toNat) 0

def headerValue (valueType : UInt8) (rest : List UInt8) : Option (Nat × List UInt8) :=
  match valueType.toNat with
  | 0 | 1 => some (0, rest)
  | 2 => some (1, rest)
  | 3 => some (2, rest)
  | 4 => some (4, rest)
  | 5 => some (8, rest)
  | 6 | 7 => if rest.length < 2 then none else some (fromBeBytes (rest.take 2), rest.drop 2)
  | 8 => some (8, rest)
  | 9 => some (16, rest)
  | _ => none

def eventTypeHeader : List UInt8 := ":event-type".toUTF8.data.toList

/-- The event type among headers; as many turns are left as there are bytes. -/
def eventTypeLoop : (left : Nat) → Option String → List UInt8 → Option String
  | 0, eventType, _ => eventType
  | _, eventType, [] => eventType
  | left + 1, eventType, nameLength :: headers =>
    match headers.drop nameLength.toNat with
    | [] => eventType
    | valueType :: rest =>
      match headerValue valueType rest with
      | none => eventType
      | some (length, value) =>
        if value.length < length then eventType
        else
          let eventType :=
            if headers.take nameLength.toNat = eventTypeHeader ∧ valueType.toNat = 7 then
              some (String.ofList (Utf8.lossy (value.take length)))
            else eventType
          eventTypeLoop left eventType (value.drop length)

/-- The event type among headers, stepping over all others. -/
def eventTypeFromHeaders (headers : List UInt8) : Option String := eventTypeLoop headers.length none headers

def decodeEventstreamFrame (buffer : List UInt8) : Except ProviderError (Option DecodedFrame) :=
  if buffer.length < 12 then .ok none
  else
    let totalLength := fromBeBytes (buffer.take 4)
    let headersLength := fromBeBytes ((buffer.drop 4).take 4)
    if totalLength < 16 ∨ headersLength > totalLength - 16 then
      .error (.invalidResponse "bedrock" "invalid eventstream frame lengths")
    else if buffer.length < totalLength then .ok none
    else
      let body := (buffer.take (totalLength - 4)).drop 12
      .ok (some { eventType := eventTypeFromHeaders (body.take headersLength),
                  payload := body.drop headersLength, consumed := totalLength })

structure BedrockStreamEvent where
  eventType : String
  value : Json

section

variable (decode : List UInt8 → Except String Json) (provider : String)

/-- Take the frames at the front of a buffer: what is left of it, and the events up to an error. -/
def drainFrames : (left : Nat) → List UInt8 → Except ProviderError (List UInt8) × List BedrockStreamEvent
  | 0, buffer => (.ok buffer, [])
  | left + 1, buffer =>
    match decodeEventstreamFrame buffer with
    | .error error => (.error error, [])
    | .ok none => (.ok buffer, [])
    | .ok (some frame) =>
      match frame.eventType with
      | none => drainFrames left (buffer.drop frame.consumed)
      | some eventType =>
        match decode frame.payload with
        | .error message => (.error (.invalidResponse provider message), [])
        | .ok value =>
          let (result, events) := drainFrames left (buffer.drop frame.consumed)
          (result, { eventType, value } :: events)

def takeFrames : List UInt8 → List (Except String (List UInt8)) →
    Except ProviderError Unit × List BedrockStreamEvent
  | _, [] => (.ok (), [])
  | _, .error message :: _ => (.error (.http provider message), [])
  | buffer, .ok chunk :: chunks =>
    match drainFrames decode provider (buffer ++ chunk).length (buffer ++ chunk) with
    | (.error error, events) => (.error error, events)
    | (.ok buffer, events) =>
      let (result, more) := takeFrames buffer chunks
      (result, events ++ more)

end

/-- A tool call that is being put together. -/
structure BedrockStreamToolCall where
  id : Option String := none
  name : String := ""
  input : String := ""

/-- A response that is being put together. -/
structure BedrockStreamAccumulator where
  content : String := ""
  hasContent : Bool := false
  toolCalls : List (Nat × BedrockStreamToolCall) := []
  finishReason : Option String := none
  usage : Option Usage := none

def contentBlockIndex (value : Json) : Nat := ((value.get "contentBlockIndex").bind Json.asU64).getD 0

def usageField (usage : Json) (field : String) : Nat := ((usage.get field).bind Json.asU64).getD 0

namespace BedrockStreamAccumulator

variable (state : BedrockStreamAccumulator)

def openBlock (value : Json) : BedrockStreamAccumulator × List SinkEvent :=
  match (value.get "start").bind (·.get "toolUse") with
  | some tool =>
    let index := contentBlockIndex value
    let id := tool.getStr "toolUseId"
    let name := (tool.getStr "name").getD ""
    ({ state with toolCalls := Assoc.insert index { id, name } state.toolCalls },
      [.toolCallDelta index id (some name) ""])
  | none => (state, [])

def addText (delta : Json) : BedrockStreamAccumulator × List SinkEvent :=
  match delta.getStr "text" with
  | some text =>
    if text.isEmpty then (state, [])
    else ({ state with hasContent := true, content := state.content ++ text }, [.token text])
  | none => (state, [])

def addInput (index : Nat) (delta : Json) : BedrockStreamAccumulator × List SinkEvent :=
  match (delta.get "toolUse").bind (·.getStr "input") with
  | some input =>
    let slot := (state.toolCalls.lookup index).getD {}
    ({ state with toolCalls := Assoc.insert index { slot with input := slot.input ++ input } state.toolCalls },
      [.toolCallDelta index slot.id none input])
  | none => (state, [])

/-- Take an event. -/
def ingest (event : BedrockStreamEvent) : BedrockStreamAccumulator × List SinkEvent :=
  let value := event.value
  match event.eventType with
  | "contentBlockStart" => state.openBlock value
  | "contentBlockDelta" =>
    match value.get "delta" with
    | some delta =>
      let (state, tokens) := state.addText delta
      let (state, deltas) := state.addInput (contentBlockIndex value) delta
      (state, tokens ++ deltas)
    | none => (state, [])
  | "messageStop" => ({ state with finishReason := (value.getStr "stopReason").or state.finishReason }, [])
  | "metadata" =>
    match value.get "usage" with
    | some usage =>
      let counted : Usage := { inputTokens := usageField usage "inputTokens",
                               outputTokens := usageField usage "outputTokens",
                               cacheReadTokens := usageField usage "cacheReadInputTokens",
                               cacheWriteTokens := usageField usage "cacheWriteInputTokens" }
      ({ state with usage := some counted }, [])
    | none => (state, [])
  | _ => (state, [])

/-- Put the response together. -/
def finish (codec : JsonCodec) : InferenceResponse where
  content := if state.hasContent then some state.content else none
  toolCalls := ((state.toolCalls.map (·.2)).filter fun call => !call.name.isEmpty).map fun call =>
    { id := call.id, name := call.name,
      arguments := if call.input.isEmpty then .object [] else (codec.parse call.input).getD (.string call.input) }
  finishReason := state.finishReason
  usage := state.usage

end BedrockStreamAccumulator

/-- How events are put together. -/
def accumulator (codec : JsonCodec) : Accumulator BedrockStreamEvent where
  State := BedrockStreamAccumulator
  initial := {}
  ingest := BedrockStreamAccumulator.ingest
  finish state := .ok (state.finish codec)

def streamFrames (decode : List UInt8 → Except String Json) (codec : JsonCodec) (provider : String)
    (response : SseResponse) : Except ProviderError InferenceResponse × List SinkEvent :=
  if response.success then
    let (result, events) := takeFrames decode provider [] response.chunks
    (accumulator codec).conclude result events
  else
    let error := httpStatusError provider response.status response.text (retryAfterSeconds response.retryAfter)
    (.error error, [])

end Codel00p.BedrockConverse
