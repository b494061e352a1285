import Codel00p.Mcp.JsonRpc

/-! What a request comes back with: its result, and the notifications that arrived before it. -/

namespace Codel00p.Mcp

inductive McpClientNotification where
  | progress (progressToken : Json) (progress : JsonNumber) (total : Option JsonNumber) (message : Option String)
  | resourceUpdated (uri : String)
  | toolsListChanged
  | resourcesListChanged
  | promptsListChanged
  | logMessage (level : String) (logger : Option String) (data : Json)
  | other (method : String) (params : Json)

def asNumber : Json → Option JsonNumber
  | .number value => some value
  | _ => none

/-- A notification by its method. -/
def clientNotificationFromJsonRpc (notification : JsonRpcNotification) : McpClientNotification :=
  let params := notification.params
  match notification.method with
  | "notifications/progress" =>
    .progress ((params.get "progressToken").getD .null) (((params.get "progress").bind asNumber).getD (.float "0.0"))
      ((params.get "total").bind asNumber) (params.getStr "message")
  | "notifications/resources/updated" =>
    match params.getStr "uri" with
    | some uri => .resourceUpdated uri
    | none => .other notification.method params
  | "notifications/tools/list_changed" => .toolsListChanged
  | "notifications/resources/list_changed" => .resourcesListChanged
  | "notifications/prompts/list_changed" => .promptsListChanged
  | "notifications/message" =>
    match params.getStr "level" with
    | some level => .logMessage level (params.getStr "logger") ((params.get "data").getD .null)
    | none => .other notification.method params
  | method => .other method params

/-- What comes back from a request. -/
structure McpClientExchange where
  response : Json
  notifications : List McpClientNotification

section

variable (codec : McpCodec) (error : String → McpError)

def jsonRpcResultFromResponse (response : Json) : Except McpError Json :=
  match JsonRpcMessage.fromJson response with
  | .response response =>
    match response.error with
    | some errorValue => .error (error ("json-rpc error response: " ++ codec.render errorValue))
    | none =>
      match response.result with
      | some result => .ok result
      | none => .error (error "json-rpc response omitted result")
  | .raw value =>
    match value.get "result" with
    | some result => .ok result
    | none => .error (error "json-rpc response omitted result")
  | .request _ | .notification _ => .error (error "server returned a non-response message")

def clientExchangeFromMessages (notifications : List McpClientNotification) :
    List Json → Except McpError McpClientExchange
  | [] => .error (error "server omitted json-rpc response")
  | message :: messages =>
    match JsonRpcMessage.fromJson message with
    | .notification notification =>
      clientExchangeFromMessages (notifications ++ [clientNotificationFromJsonRpc notification]) messages
    | .response _ | .raw _ => .ok { response := message, notifications }
    | .request _ => .error (error "server returned a request while awaiting response")

def sseMessage (data : String) : Except String Json :=
  match codec.parse data with
  | some value => .ok value
  | none => .error ("invalid sse json response: " ++ codec.invalid data)

/-- Take a line: an empty one ends the event, and data is put behind the data so far. -/
def takeSseLine (state : List Json × String) (line : List Char) : Except String (List Json × String) :=
  let (messages, data) := state
  let line := String.ofList (trimBreaks line)
  if line.isEmpty then
    if isBlank data then .ok state else (sseMessage codec data).map fun message => (messages ++ [message], "")
  else match stripFront line "data:" with
    | some rest => .ok (messages, (if data.isEmpty then data else data ++ "\n") ++ trimStart rest)
    | none => .ok state

def decodeSseJsonRpcMessages (body : String) : Except String (List Json) := do
  let (messages, data) ← (linesWithEnds body.toList).foldlM (takeSseLine codec) ([], "")
  let messages ← if isBlank data then pure messages else (sseMessage codec data).map (messages ++ [·])
  if messages.isEmpty then .error "sse response omitted data event" else .ok messages

end

end Codel00p.Mcp
