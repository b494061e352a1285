import Codel00p.Lib.Json

/-! JSON-RPC messages of the Model Context Protocol, and how they are told apart and written down. -/

namespace Codel00p.Mcp

/-- What goes wrong between a client and a server. -/
inductive McpError where
  | client (message : String)
  | tool (serverId toolName message : String)
  | invalidStdioMessage (message : String)
  | stdioTransport (serverId message : String)
  | httpTransport (serverId message : String)
  deriving DecidableEq, Repr

/-- The id that ties a response to its request. -/
inductive JsonRpcId where
  | number (value : UInt64)
  | string (text : String)
  deriving DecidableEq, Repr

/-- A request, which asks for a response. -/
structure JsonRpcRequest where
  jsonrpc : String := "2.0"
  id : JsonRpcId
  method : String
  params : Json

structure JsonRpcResponse where
  jsonrpc : String := "2.0"
  id : JsonRpcId
  result : Option Json := none
  error : Option Json := none

structure JsonRpcNotification where
  jsonrpc : String := "2.0"
  method : String
  params : Json

/-- A message; what has none of the shapes is kept as it is. -/
inductive JsonRpcMessage where
  | request (request : JsonRpcRequest)
  | notification (notification : JsonRpcNotification)
  | response (response : JsonRpcResponse)
  | raw (value : Json)

/-! ### Reading -/

def JsonRpcId.fromJson : Json → Option JsonRpcId
  | .number (.posInt value) => some (.number value)
  | .string text => some (.string text)
  | _ => none

def structFields (names : List String) : Json → Option (List (Option Json))
  | .object fields => some (names.map fun name => fields.lookup name)
  | .array items => if items.length = names.length then some (items.map some) else none
  | _ => none

def presentField (field : Option Json) : Option Json := field.filter (!·.isNull)

def JsonRpcRequest.fromJson (value : Json) : Option JsonRpcRequest :=
  match structFields ["jsonrpc", "id", "method", "params"] value with
  | some [some (.string jsonrpc), some id, some (.string method), some params] =>
    (JsonRpcId.fromJson id).map fun id => { jsonrpc, id, method, params }
  | _ => none

def JsonRpcNotification.fromJson (value : Json) : Option JsonRpcNotification :=
  match structFields ["jsonrpc", "method", "params"] value with
  | some [some (.string jsonrpc), some (.string method), some params] => some { jsonrpc, method, params }
  | _ => none

def JsonRpcResponse.fromJson (value : Json) : Option JsonRpcResponse :=
  match structFields ["jsonrpc", "id", "result", "error"] value with
  | some [some (.string jsonrpc), some id, result, error] =>
    (JsonRpcId.fromJson id).map fun id =>
      { jsonrpc, id, result := presentField result, error := presentField error }
  | _ => none

/-- Read a message as the first of the shapes that it has. -/
def JsonRpcMessage.fromJson (value : Json) : JsonRpcMessage :=
  match JsonRpcRequest.fromJson value, JsonRpcNotification.fromJson value, JsonRpcResponse.fromJson value with
  | some asked, _, _ => .request asked
  | none, some told, _ => .notification told
  | none, none, some answered => .response answered
  | none, none, none => .raw value

/-! ### Writing -/

def JsonRpcId.toJson : JsonRpcId → Json
  | .number value => .number (.posInt value)
  | .string text => .string text

def optionalField (name : String) : Option Json → List (String × Json)
  | some value => [(name, value)]
  | none => []

def JsonRpcMessage.toJson : JsonRpcMessage → Json
  | .request asked => .object [("jsonrpc", .string asked.jsonrpc), ("id", asked.id.toJson),
      ("method", .string asked.method), ("params", asked.params)]
  | .notification told => .object [("jsonrpc", .string told.jsonrpc),
      ("method", .string told.method), ("params", told.params)]
  | .response answered => .object ([("jsonrpc", .string answered.jsonrpc), ("id", answered.id.toJson)]
      ++ optionalField "result" answered.result ++ optionalField "error" answered.error)
  | .raw value => value

/-! ### Lines -/

/-- Reading and writing JSON text, with the text of the error for what cannot be read. -/
structure McpCodec extends JsonCodec where
  invalid : String → String

def isLineBreak (c : Char) : Bool := c = '\n' || c = '\r'

def trimBreaks (line : List Char) : List Char := (line.reverse.dropWhile isLineBreak).reverse

/-- The error for a message that is spread over lines. -/
def embeddedNewlines : McpError := .invalidStdioMessage "stdio messages must not contain embedded newlines"

section

variable (codec : McpCodec)

def encodeStdioMessage (message : JsonRpcMessage) : Except McpError String :=
  let encoded := codec.render message.toJson
  if encoded.toList.any isLineBreak then .error embeddedNewlines else .ok (encoded ++ "\n")

def decodeStdioValue (line : String) : Except McpError Json :=
  let trimmed := String.ofList (trimBreaks line.toList)
  if trimmed.toList.any isLineBreak then .error embeddedNewlines
  else match codec.parse trimmed with
    | some value => .ok value
    | none => .error (.invalidStdioMessage (codec.invalid trimmed))

def decodeStdioMessage (line : String) : Except McpError JsonRpcMessage :=
  (decodeStdioValue codec line).map JsonRpcMessage.fromJson

end

end Codel00p.Mcp
