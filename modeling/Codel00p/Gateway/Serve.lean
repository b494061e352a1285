import Codel00p.Gateway.Auth
import Codel00p.Gateway.SessionState

/-! The gateway over HTTP: requests are dispatched by route, and connections are handled one after the other. -/

namespace Codel00p.Gateway

structure MessageRequest where
  conversation : String
  user : String
  text : String
  deriving DecidableEq, Repr

structure Service (σ : Type) where
  secrets : GatewaySecrets
  decodeMessage : String → Except String MessageRequest
  decodeEnvelope : String → Except String Envelope
  mac : Mac
  codec : JsonCodec
  runMessage : MessageRequest → σ → Except GatewayStop String × σ

inductive Dispatched where
  | reply (status : Nat) (payload : Json)
  | run (message : MessageRequest)

variable {σ : Type} (service : Service σ)

def fieldReply (status : Nat) (name text : String) : Dispatched := .reply status (.obj [(name, .string text)])

def messageReply (body : String) : Dispatched :=
  match service.decodeMessage body with
  | .error error => fieldReply 400 "error" ("invalid JSON: " ++ error)
  | .ok message => .run message

def slackEventReply (body : String) : Dispatched :=
  match parseSlackEvent (service.decodeEnvelope body) with
  | .ok (.urlVerification challenge) => fieldReply 200 "challenge" challenge
  | .ok (.message conversation user text) => .run { conversation, user, text }
  | .ok .ignored => fieldReply 200 "status" "ignored"
  | .error error => fieldReply 400 "error" ("invalid slack event: " ++ error)

def slackReply (clock : Option Nat) (request : HttpRequest) : Except HandlingStop Dispatched :=
  match service.secrets.slackSigning with
  | none => .ok (slackEventReply service request.body)
  | some secret => do
    let valid ← slackSignatureValid service.mac clock secret request
    if valid then return slackEventReply service request.body
    else return fieldReply 401 "error" "invalid slack signature"

def dispatch (clock : Option Nat) (request : HttpRequest) : Except HandlingStop Dispatched :=
  match request.method, request.path with
  | "GET", "/healthz" => .ok (fieldReply 200 "status" "ok")
  | "POST", "/slack/events" => slackReply service clock request
  | "POST", "/message" =>
    if authorize service.secrets.webhook (request.header "authorization") then
      .ok (messageReply service request.body)
    else .ok (fieldReply 401 "error" "unauthorized")
  | _, _ => .ok (fieldReply 404 "error" "not found")

/-- Read a request and decide what is done about it. -/
def receive (connection : Connection) : Except HandlingStop Dispatched := do
  let request ← readRequest connection
  dispatch service connection.clock request

def statusReason (status : Nat) : String :=
  match status with
  | 400 => "Bad Request"
  | 404 => "Not Found"
  | 500 => "Internal Server Error"
  | _ => "OK"

def responseText (status : Nat) (payload : String) : String :=
  "HTTP/1.1 " ++ toString status ++ " " ++ statusReason status
    ++ "\r\nContent-Type: application/json\r\nContent-Length: " ++ toString (byteLength payload.toList)
    ++ "\r\nConnection: close\r\n\r\n" ++ payload

def respond (connection : Connection) (status : Nat) (payload : Json) : Except HandlingStop String :=
  match connection.writeError with
  | some message => .error (.io message)
  | none => .ok (responseText status (service.codec.render payload))

def answer (connection : Connection) (dispatched : Dispatched) (state : σ) : Except HandlingStop String × σ :=
  match dispatched with
  | .reply status payload => (respond service connection status payload, state)
  | .run message =>
    match service.runMessage message state with
    | (.ok reply, state) =>
      (respond service connection 200 (.obj [("reply", .string (trimEnd reply))]), state)
    | (.error (.failed error), state) => (respond service connection 500 (.obj [("error", .string error)]), state)
    | (.error .panicked, state) => (.error .panicked, state)

def handleConnection (connection : Connection) (state : σ) : Except HandlingStop String × σ :=
  match receive service connection with
  | .ok dispatched => answer service connection dispatched state
  | .error stop => (.error stop, state)

/-- Whether the next connection is served after a handling that did not come to a reply. -/
def HandlingStop.goesOn : HandlingStop → Bool
  | .io _ => true
  | .panicked | .aborted | .blocked => false

/-- Serve connections one after the other: what came of each of them, up to one that ends the loop. -/
def serveLoop : List Connection → σ → List (Except HandlingStop String) × σ
  | [], state => ([], state)
  | connection :: rest, state =>
    match handleConnection service connection state with
    | (.error stop, state) =>
      if stop.goesOn then
        let (outcomes, state) := serveLoop rest state
        (.error stop :: outcomes, state)
      else ([.error stop], state)
    | (.ok response, state) =>
      let (outcomes, state) := serveLoop rest state
      (.ok response :: outcomes, state)

end Codel00p.Gateway
