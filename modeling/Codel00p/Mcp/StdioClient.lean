import Codel00p.Lib.Program
import Codel00p.Mcp.Exchange

/-! The client of a server that is a process: messages are lines on its standard streams. -/

namespace Codel00p.Mcp

structure McpClientRoot where
  uri : String
  name : Option String := none

def McpClientRoot.toJson (root : McpClientRoot) : Json :=
  .object ([("uri", .string root.uri)] ++ optionalField "name" (root.name.map .string))

inductive ReadOutcome where
  | line (text : String)
  | timedOut
  | failed (message : String)

/-- How a write comes to nothing. -/
inductive WriteFailure where
  | write (message : String)
  | flush (message : String)

/-- The standard input of a server. -/
structure ServerStdin where
  /-- What was written to it, in order. -/
  written : List String := []
  /-- How the write after so many others fails, if it does. -/
  failure : Nat → Option WriteFailure := fun _ => none

structure McpStdioClient where
  serverId : String
  /-- The standard input, until it is closed. -/
  stdin : Option ServerStdin := some {}
  /--
  What the next reads of the standard output give; after them it is closed.

  A line of which a part was read before a timeout is without that part.
  -/
  stdout : List ReadOutcome
  nextRequestId : UInt64 := 1
  roots : List McpClientRoot := []
  requestTimeoutMs : Nat := 30000

abbrev StdioM := Program McpError McpStdioClient

def stdioError {α : Type} (message : String) : StdioM α := do
  throw (.stdioTransport (← Program.reads (·.serverId)) message)

section

variable (codec : McpCodec)

def writeLine (what : String) (message : JsonRpcMessage) : StdioM Unit := do
  let encoded ← Program.ofExcept (encodeStdioMessage codec message)
  match (← Program.reads (·.stdin)) with
  | none => stdioError "server stdin is closed"
  | some stdin =>
    Program.change fun client => { client with stdin := some { stdin with written := stdin.written ++ [encoded] } }
    match stdin.failure stdin.written.length with
    | some (.write error) => stdioError s!"failed to write {what}: {error}"
    | some (.flush error) => stdioError s!"failed to flush {what}: {error}"
    | none => pure ()

def writeMessage (message : JsonRpcMessage) : StdioM Unit := writeLine codec "message" message

def notify (method : String) (params : Json) : StdioM Unit :=
  writeLine codec "notification" (.notification { method, params })

def respondToServerRequest (request : JsonRpcRequest) : StdioM Unit := do
  let roots ← Program.reads (·.roots)
  writeMessage codec (.response
    (if request.method = "roots/list" then
      { id := request.id, result := some (.object [("roots", .array (roots.map (·.toJson)))]) }
    else
      { id := request.id
        error := some (.object [("code", .number (.negInt (-32601))),
          ("message", .string ("client request method is not supported: " ++ request.method))]) }))

/-- Read lines until one is taken for the response; the reads are those that are left. -/
def awaitResponse (notifications : List McpClientNotification) : List ReadOutcome → StdioM McpClientExchange
  | [] => stdioError "server closed stdout before responding"
  | read :: reads => do
    Program.change ({ · with stdout := reads })
    match read with
    | .timedOut =>
      let millis ← Program.reads (·.requestTimeoutMs)
      stdioError ("request timed out after " ++ toString millis ++ " ms")
    | .failed error => stdioError ("failed to read response: " ++ error)
    | .line line =>
      if line.isEmpty then stdioError "server closed stdout before responding"
      else match (← Program.ofExcept (decodeStdioMessage codec line)) with
        | .response response =>
          match response.error, response.result with
          | some error, _ => stdioError ("json-rpc error response: " ++ codec.render error)
          | none, some result => pure { response := result, notifications }
          | none, none => stdioError "json-rpc response omitted result"
        | .raw value =>
          match value.get "result" with
          | some result => pure { response := result, notifications }
          | none => stdioError "json-rpc response omitted result"
        | .notification notification =>
          awaitResponse (notifications ++ [clientNotificationFromJsonRpc notification]) reads
        | .request request => do
          respondToServerRequest codec request
          awaitResponse notifications reads

/-- Make a request and wait for what comes back. -/
def stdioRequestExchange (method : String) (params : Json) : StdioM McpClientExchange := do
  let requestId ← Program.reads (·.nextRequestId)
  Program.change ({ · with nextRequestId := requestId + 1 })
  writeMessage codec (.request { id := .number requestId, method, params })
  let reads ← Program.reads (·.stdout)
  awaitResponse codec [] reads

/-- Read lines until one is a notification; the reads are those that are left. -/
def awaitNotification : List ReadOutcome → StdioM McpClientNotification
  | [] => stdioError "server closed stdout before notification"
  | read :: reads => do
    Program.change ({ · with stdout := reads })
    match read with
    | .timedOut =>
      let millis ← Program.reads (·.requestTimeoutMs)
      stdioError ("notification read timed out after " ++ toString millis ++ " ms")
    | .failed error => stdioError ("failed to read notification: " ++ error)
    | .line line =>
      if line.isEmpty then stdioError "server closed stdout before notification"
      else if isBlank line then awaitNotification reads
      else match (← Program.ofExcept (decodeStdioMessage codec line)) with
        | .notification notification => pure (clientNotificationFromJsonRpc notification)
        | .request request => do
          respondToServerRequest codec request
          awaitNotification reads
        | .response _ | .raw _ => stdioError "server returned a non-notification message"

def readNotification : StdioM McpClientNotification := do
  let reads ← Program.reads (·.stdout)
  awaitNotification codec reads

end

end Codel00p.Mcp
