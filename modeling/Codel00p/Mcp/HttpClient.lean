import Codel00p.Lib.Program
import Codel00p.Mcp.Exchange

/-! The client of a server that is reached by HTTP: each message is posted, and the reply holds what comes back. -/

namespace Codel00p.Mcp

structure HttpPost where
  url : String
  bearerToken : Option String
  sessionId : Option String
  headers : List (String × String)
  message : JsonRpcMessage

structure HttpReply where
  status : Nat
  /-- The status with its reason. -/
  statusText : String
  /-- The session that the server gives out. -/
  sessionId : Option String := none
  contentType : Option String := none
  /-- The body as a text, unless reading it failed. -/
  body : Except String String

structure McpHttpClient where
  serverId : String
  url : String
  bearerToken : Option String := none
  headers : List (String × String) := []
  sessionId : Option String := none
  nextRequestId : UInt64 := 1
  /-- What was posted, in order. -/
  posted : List HttpPost := []
  /-- The reply to the last of the posts, or why there is none. -/
  server : List HttpPost → Except String HttpReply

abbrev HttpM := Program McpError McpHttpClient

def McpHttpClient.httpError (client : McpHttpClient) (message : String) : McpError :=
  .httpTransport client.serverId message

section

variable (codec : McpCodec)

def McpHttpClient.exchangeOf (client : McpHttpClient) (reply : HttpReply) : Except McpError McpClientExchange := do
  match reply.body with
  | .error error => .error (client.httpError ("failed to read response body: " ++ error))
  | .ok body =>
    if ¬(200 ≤ reply.status ∧ reply.status < 300) then
      .error (client.httpError ("server returned HTTP " ++ reply.statusText ++ ": " ++ trim body))
    else if reply.status = 202 ∨ isBlank body then .ok { response := .null, notifications := [] }
    else if (stripFront (toAsciiLowercase (reply.contentType.getD "")) "text/event-stream").isSome then
      match decodeSseJsonRpcMessages codec body with
      | .error message => .error (client.httpError message)
      | .ok messages => clientExchangeFromMessages client.httpError [] messages
    else match codec.parse body with
      | some response => .ok { response, notifications := [] }
      | none => .error (client.httpError ("invalid json response: " ++ codec.invalid body))

def McpHttpClient.post (client : McpHttpClient) (message : JsonRpcMessage) : HttpPost where
  url := client.url
  bearerToken := client.bearerToken
  sessionId := client.sessionId
  headers := client.headers
  message := message

def McpHttpClient.replyTo (client : McpHttpClient) (message : JsonRpcMessage) : Except String HttpReply :=
  client.server (client.posted ++ [client.post message])

def postJsonRpc (message : JsonRpcMessage) : HttpM McpClientExchange := do
  let client ← Program.reads id
  Program.change ({ · with posted := client.posted ++ [client.post message] })
  match client.replyTo message with
  | .error error => throw (client.httpError ("request failed: " ++ error))
  | .ok reply =>
    Program.change fun client => { client with sessionId := reply.sessionId.or client.sessionId }
    Program.ofExcept (client.exchangeOf codec reply)

/-- Make a request and take the result out of what comes back. -/
def httpRequestExchange (method : String) (params : Json) : HttpM McpClientExchange := do
  let client ← Program.reads id
  Program.change ({ · with nextRequestId := client.nextRequestId + 1 })
  let exchange ← postJsonRpc codec (.request { id := .number client.nextRequestId, method, params })
  let response ← Program.ofExcept (jsonRpcResultFromResponse codec client.httpError exchange.response)
  return { response, notifications := exchange.notifications }

/-- Notify the server, which need not reply with anything. -/
def httpNotify (method : String) (params : Json) : HttpM Unit := do
  let client ← Program.reads id
  let exchange ← postJsonRpc codec (.notification { method, params })
  if exchange.response.isNull then return ()
  discard (Program.ofExcept (jsonRpcResultFromResponse codec client.httpError exchange.response))

end

end Codel00p.Mcp
