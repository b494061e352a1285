import Codel00p.Lib.Except
import Codel00p.Mcp.HttpClient
import Codel00p.Mcp.StdioClient

/-! Requests and the responses that they are given, over all that a client does on a connection. -/

namespace Codel00p.Mcp

open JsonRpcMessage (fromJson)
open Program (exec exec_bind exec_reads exec_ofExcept exec_change)

/-! ### Connections -/

inductive McpConnection where
  | stdio (client : McpStdioClient)
  | http (client : McpHttpClient)

/-- What a client is asked to do. -/
inductive ClientCall where
  | request (method : String) (params : Json)
  | notify (method : String) (params : Json)
  | readNotification

namespace McpConnection

variable (codec : McpCodec)

def nextRequestId : McpConnection → UInt64
  | stdio client => client.nextRequestId
  | http client => client.nextRequestId

def requestExchange (method : String) (params : Json) :
    McpConnection → Except McpError McpClientExchange × McpConnection
  | stdio client => (exec (stdioRequestExchange codec method params) client).map id stdio
  | http client => (exec (httpRequestExchange codec method params) client).map id http

def after (connection : McpConnection) : ClientCall → McpConnection
  | .request method params => (connection.requestExchange codec method params).2
  | .notify method params =>
    match connection with
    | stdio client => stdio (exec (notify codec method params) client).2
    | http client => http (exec (httpNotify codec method params) client).2
  | .readNotification =>
    match connection with
    | stdio client => stdio (exec (readNotification codec) client).2
    | http client => http client

def requests : McpConnection → List ClientCall → List (McpConnection × String × Json)
  | _, [] => []
  | connection, call :: calls =>
    (match call with
      | .request method params => [(connection, method, params)]
      | _ => []) ++ requests (connection.after codec call) calls

end McpConnection

/-! ### Messages that a request reads -/

section

variable (codec : McpCodec)

def messagesOnLines (client : McpStdioClient) : List ReadOutcome → List Json
  | .line line :: reads =>
    if line.isEmpty then []
    else match decodeStdioValue codec line with
      | .error _ => []
      | .ok message =>
        match fromJson message with
        | .notification _ => message :: messagesOnLines { client with stdout := reads } reads
        | .request request =>
          match exec (respondToServerRequest codec request) { client with stdout := reads } with
          | (.ok (), client) => message :: messagesOnLines client reads
          | (.error _, _) => [message]
        | .response _ | .raw _ => [message]
  | _ => []

def messagesOfEvents : List Json → List Json
  | [] => []
  | message :: messages =>
    match fromJson message with
    | .notification _ => message :: messagesOfEvents messages
    | _ => [message]

def messagesOfReply (reply : HttpReply) : List Json :=
  match reply.body with
  | .error _ => []
  | .ok body =>
    if ¬(200 ≤ reply.status ∧ reply.status < 300) then []
    else if reply.status = 202 ∨ isBlank body then []
    else if (stripFront (toAsciiLowercase (reply.contentType.getD "")) "text/event-stream").isSome then
      match decodeSseJsonRpcMessages codec body with
      | .error _ => []
      | .ok messages => messagesOfEvents messages
    else (codec.parse body).toList

/-- The messages that a request reads, if it is made now. -/
def McpConnection.incoming (connection : McpConnection) (method : String) (params : Json) : List Json :=
  match connection with
  | .stdio client =>
    match exec (writeMessage codec (.request { id := .number client.nextRequestId, method, params }))
        { client with nextRequestId := client.nextRequestId + 1 } with
    | (.ok (), client) => messagesOnLines codec client client.stdout
    | (.error _, _) => []
  | .http client =>
    match client.replyTo (.request { id := .number client.nextRequestId, method, params }) with
    | .ok reply => messagesOfReply codec reply
    | .error _ => []

end

/-! ### Answers -/

def JsonRpcMessage.carriedId : JsonRpcMessage → Option JsonRpcId
  | .response answered => some answered.id
  | .raw value => (value.get "id").bind JsonRpcId.fromJson
  | _ => none

def JsonRpcMessage.carriedResult : JsonRpcMessage → Option Json
  | .response answered => if answered.error.isSome then none else answered.result
  | .raw value => value.get "result"
  | _ => none

def Notifies (message : Json) : Prop := (message.get "method").isSome ∧ message.get "id" = none

def reported (message : Json) : Option McpClientNotification :=
  match fromJson message with
  | .notification notification => some (clientNotificationFromJsonRpc notification)
  | _ => none

/--
What a request came back with is the result of a message, and all that notified before it.

The notifications follow those that had been collected earlier.
-/
structure Answered (earlier : List McpClientNotification) (incoming before : List Json) (answer : Json)
    (exchange : McpClientExchange) : Prop where
  incoming_eq : incoming = before ++ [answer]
  response : (fromJson answer).carriedResult = some exchange.response
  notifications : exchange.notifications = earlier ++ before.filterMap reported
  complete : ∀ message ∈ before, Notifies message → (reported message).isSome

/-- What a request came back with is the answer to it. -/
def Correlated (id : UInt64) (incoming : List Json) (exchange : McpClientExchange) : Prop :=
  ∃ before answer, Answered [] incoming before answer exchange ∧ (fromJson answer).carriedId = some (.number id)

/-- The message that a request stops at has the id of the request, unless it has no result. -/
def OwnAnswerFirst (id : UInt64) (incoming : List Json) : Prop :=
  ∀ answer, incoming.getLast? = some answer → (fromJson answer).carriedResult.isSome →
    (fromJson answer).carriedId = some (.number id)

/-! ### One message after the other -/

theorem JsonRpcMessage.fromJson_eq_request {message : Json} {asked : JsonRpcRequest}
    (read : fromJson message = .request asked) : JsonRpcRequest.fromJson message = some asked := by
  unfold fromJson at read
  split at read
  · next found => cases read; exact found
  iterate 3 · exact nomatch read

theorem not_notifies_of_request {message : Json} {asked : JsonRpcRequest}
    (read : fromJson message = .request asked) : ¬Notifies message := by
  have found := JsonRpcMessage.fromJson_eq_request read
  rintro ⟨method, absent⟩
  unfold JsonRpcRequest.fromJson at found
  split at found
  · next jsonrpc id name params fields =>
    cases message with
    | object entries =>
      -- The second of the fields that are looked up is the id.
      have present : entries.lookup "id" = some id := (List.cons.inj (List.cons.inj (Option.some.inj fields)).2).1
      exact nomatch absent.symm.trans present
    | null | bool _ | number _ | string _ | array _ => exact nomatch method
  · exact nomatch found

section

variable {earlier : List McpClientNotification} {incoming : List Json} {message : Json} {exchange : McpClientExchange}

theorem not_answered_nil : ¬∃ before answer, Answered earlier [] before answer exchange := by
  rintro ⟨before, answer, answered⟩
  exact List.append_ne_nil_of_right_ne_nil before (List.cons_ne_nil answer []) answered.incoming_eq.symm

theorem answered_singleton_iff : (∃ before answer, Answered earlier [message] before answer exchange) ↔
      (fromJson message).carriedResult = some exchange.response ∧ exchange.notifications = earlier := by
  constructor
  · rintro ⟨before, answer, answered⟩
    have split : before ++ [answer] = [] ++ [message] := answered.incoming_eq.symm
    obtain ⟨rfl, same⟩ := List.append_inj' split rfl
    obtain rfl : answer = message := (List.cons.inj same).1
    exact ⟨answered.response, answered.notifications.trans (List.append_nil _)⟩
  · rintro ⟨response, notifications⟩
    exact ⟨[], message, rfl, response, notifications.trans (List.append_nil _).symm, fun _ member => (nomatch member)⟩

theorem answered_cons_iff (passed : (fromJson message).carriedResult = none)
    (complete : Notifies message → (reported message).isSome) :
    (∃ before answer, Answered earlier (message :: incoming) before answer exchange) ↔
      ∃ before answer, Answered (earlier ++ (reported message).toList) incoming before answer exchange := by
  -- The messages that are reported are those of the first message and of the rest.
  have collect : ∀ before, earlier ++ (message :: before).filterMap reported =
      earlier ++ (reported message).toList ++ before.filterMap reported := by
    intro before
    rw [List.filterMap_cons, List.append_assoc]
    cases reported message <;> rfl
  constructor
  · rintro ⟨before, answer, answered⟩
    cases before with
    | nil =>
      obtain rfl : message = answer := (List.cons.inj answered.incoming_eq).1
      exact nomatch passed.symm.trans answered.response
    | cons first before =>
      obtain ⟨rfl, rest⟩ := List.cons.inj answered.incoming_eq
      exact ⟨before, answer, rest, answered.response, answered.notifications.trans (collect before),
        fun _ member => answered.complete _ (List.mem_cons_of_mem _ member)⟩
  · rintro ⟨before, answer, answered⟩
    refine ⟨message :: before, answer, congrArg (message :: ·) answered.incoming_eq, answered.response,
      answered.notifications.trans (collect before).symm, ?_⟩
    exact List.forall_mem_cons.2 ⟨complete, answered.complete⟩

/-- All messages but the last one are reported if they notify. -/
def PassedOver (incoming : List Json) : Prop :=
  ∀ message ∈ incoming.dropLast, Notifies message → (reported message).isSome

/-- What a request reads decides what it returns. -/
structure Decides (earlier : List McpClientNotification) (incoming : List Json)
    (returned : Except McpError McpClientExchange) : Prop where
  returns_iff : ∀ exchange, returned = .ok exchange ↔
    ∃ before answer, Answered earlier incoming before answer exchange
  passed : PassedOver incoming

namespace Decides

variable {returned : Except McpError McpClientExchange}

theorem nil (error : McpError) : Decides earlier [] (.error error) :=
  ⟨fun _ => iff_of_false nofun not_answered_nil, nofun⟩

theorem stop (returns : ∀ exchange, returned = .ok exchange ↔
    (fromJson message).carriedResult = some exchange.response ∧ exchange.notifications = earlier) :
    Decides earlier [message] returned :=
  ⟨fun exchange => (returns exchange).trans answered_singleton_iff.symm, nofun⟩

theorem cons (passed : (fromJson message).carriedResult = none)
    (complete : Notifies message → (reported message).isSome)
    (rest : Decides (earlier ++ (reported message).toList) incoming returned) :
    Decides earlier (message :: incoming) returned := by
  refine ⟨fun exchange => (rest.returns_iff exchange).trans (answered_cons_iff passed complete).symm, ?_⟩
  cases incoming with
  | nil => exact nofun
  | cons next incoming => exact List.forall_mem_cons.2 ⟨complete, rest.passed⟩

theorem notification {told : JsonRpcNotification} (read : fromJson message = .notification told)
    (rest : Decides (earlier ++ [clientNotificationFromJsonRpc told]) incoming returned) :
    Decides earlier (message :: incoming) returned := by
  have shown : reported message = some (clientNotificationFromJsonRpc told) := by
    rw [reported, read]
  exact cons (by rw [read]; rfl) (fun _ => by rw [shown]; rfl) (by rw [shown]; exact rest)

theorem request {asked : JsonRpcRequest} (read : fromJson message = .request asked)
    (rest : Decides earlier incoming returned) : Decides earlier (message :: incoming) returned := by
  have hidden : reported message = none := by
    rw [reported, read]
  refine cons (by rw [read]; rfl) (fun notifies => absurd notifies (not_notifies_of_request read)) ?_
  rw [hidden, Option.toList_none, List.append_nil]
  exact rest

end Decides

end

/-! ### Whole requests -/

section

variable (codec : McpCodec)

theorem exchange_eq_iff {result : Json} {notifications : List McpClientNotification} {exchange : McpClientExchange} :
    (.ok { response := result, notifications } : Except McpError McpClientExchange) = .ok exchange ↔
      some result = some exchange.response ∧ exchange.notifications = notifications := by
  constructor
  · rintro ⟨⟩
    exact ⟨rfl, rfl⟩
  · rintro ⟨⟨⟩, rfl⟩
    rfl

theorem jsonRpcResultFromResponse_eq_ok_iff (error : String → McpError) (message result : Json) :
    jsonRpcResultFromResponse codec error message = .ok result ↔ (fromJson message).carriedResult = some result := by
  unfold jsonRpcResultFromResponse JsonRpcMessage.carriedResult
  cases fromJson message with
  | request | notification => exact iff_of_false nofun nofun
  | response answered =>
    dsimp only
    cases answered.error with
    | some error => exact iff_of_false nofun nofun
    | none => cases answered.result <;> simp
  | raw value =>
    dsimp only
    cases value.get "result" <;> simp

theorem result_eq_ok_iff (error : String → McpError) (earlier : List McpClientNotification) (message : Json)
    (exchange : McpClientExchange) :
    (do
      let response ← jsonRpcResultFromResponse codec error message
      return { response, notifications := earlier } : Except McpError McpClientExchange) = .ok exchange ↔
      (fromJson message).carriedResult = some exchange.response ∧
        exchange.notifications = earlier := by
  rw [Except.bind_eq_ok]
  constructor
  · rintro ⟨result, taken, made⟩
    rw [jsonRpcResultFromResponse_eq_ok_iff] at taken
    rw [taken]
    exact exchange_eq_iff.1 made
  · rintro ⟨taken, rfl⟩
    exact ⟨_, (jsonRpcResultFromResponse_eq_ok_iff codec error message _).2 taken, rfl⟩

/-- The messages on the lines decide what the wait for a response returns. -/
theorem awaitResponse_decides (reads : List ReadOutcome) :
    ∀ (client : McpStdioClient) (earlier : List McpClientNotification),
      Decides earlier (messagesOnLines codec client reads) (exec (awaitResponse codec earlier reads) client).1 := by
  induction reads with
  | nil => exact fun _ _ => .nil _
  | cons read reads ih =>
    intro client earlier
    unfold awaitResponse messagesOnLines
    rw [exec_bind, exec_change]
    cases read with
    | timedOut | failed message => exact .nil _
    | line line =>
      dsimp only
      by_cases closed : line.isEmpty = true
      · rw [if_pos closed, if_pos closed]
        exact .nil _
      · rw [if_neg closed, if_neg closed, exec_bind, exec_ofExcept, decodeStdioMessage]
        cases decodeStdioValue codec line with
        | error error => exact .nil _
        | ok message =>
          dsimp only [Except.map]
          cases shape : fromJson message with
          | notification told => exact .notification shape (ih _ _)
          | request asked =>
            dsimp only
            rw [exec_bind]
            -- The wait goes on from where the server was responded to.
            rcases exec (respondToServerRequest codec asked) { client with stdout := reads } with
              ⟨_ | _, responded⟩
            · exact .stop fun _ => iff_of_false nofun fun wrong => nomatch (shape ▸ wrong.1 :)
            · exact .request shape (ih _ _)
          | response answered =>
            refine .stop fun exchange => .trans ?_ (result_eq_ok_iff codec (.stdioTransport client.serverId) _ _ exchange)
            rw [jsonRpcResultFromResponse, shape]
            dsimp only
            cases answered.error <;> cases answered.result <;> rfl
          | raw value =>
            refine .stop fun exchange => .trans ?_ (result_eq_ok_iff codec (.stdioTransport client.serverId) _ _ exchange)
            rw [jsonRpcResultFromResponse, shape]
            dsimp only
            cases value.get "result" <;> rfl

theorem stdioRequestExchange_decides (client : McpStdioClient) (method : String) (params : Json) :
    Decides [] ((McpConnection.stdio client).incoming codec method params)
      (exec (stdioRequestExchange codec method params) client).1 := by
  unfold stdioRequestExchange
  rw [exec_bind, exec_reads]
  dsimp only
  rw [exec_bind, exec_change]
  dsimp only
  rw [exec_bind, McpConnection.incoming]
  rcases exec (writeMessage codec (.request { id := .number client.nextRequestId, method, params }))
    { client with nextRequestId := client.nextRequestId + 1 } with ⟨_ | _, written⟩
  · exact .nil _
  · exact awaitResponse_decides codec written.stdout written []

theorem clientExchangeFromMessages_decides (error : String → McpError) (messages : List Json) :
    ∀ earlier : List McpClientNotification, Decides earlier (messagesOfEvents messages)
      (do
        let taken ← clientExchangeFromMessages error earlier messages
        let response ← jsonRpcResultFromResponse codec error taken.response
        return { response, notifications := taken.notifications }) := by
  induction messages with
  | nil => exact fun _ => .nil _
  | cons message messages ih =>
    intro earlier
    unfold clientExchangeFromMessages messagesOfEvents
    cases shape : fromJson message with
    | notification told => exact .notification shape (ih _)
    | request asked => exact .stop fun _ => iff_of_false nofun fun wrong => nomatch (shape ▸ wrong.1 :)
    | response _ | raw _ => exact .stop (result_eq_ok_iff codec error earlier message)

theorem exchangeOf_decides (client : McpHttpClient) (reply : HttpReply) :
    Decides [] (messagesOfReply codec reply)
      (do
        let taken ← client.exchangeOf codec reply
        let response ← jsonRpcResultFromResponse codec client.httpError taken.response
        return { response, notifications := taken.notifications }) := by
  unfold McpHttpClient.exchangeOf messagesOfReply
  cases reply.body with
  | error error => exact .nil _
  | ok body =>
    dsimp only
    split
    · exact .nil _
    · split
      · -- Without a body there is nothing that a result could be taken from.
        exact .nil _
      · split
        · cases decodeSseJsonRpcMessages codec body with
          | error error => exact .nil _
          | ok messages => exact clientExchangeFromMessages_decides codec _ messages []
        · cases codec.parse body with
          | none => exact .nil _
          | some message => exact .stop (result_eq_ok_iff codec _ [] message)

theorem httpRequestExchange_decides (client : McpHttpClient) (method : String) (params : Json) :
    Decides [] ((McpConnection.http client).incoming codec method params)
      (exec (httpRequestExchange codec method params) client).1 := by
  unfold httpRequestExchange postJsonRpc
  simp only [exec_bind, exec_reads, exec_change, id]
  -- The count of requests has no part in what is posted.
  have same : McpHttpClient.replyTo { client with nextRequestId := client.nextRequestId + 1 }
      (.request { id := .number client.nextRequestId, method, params }) =
        client.replyTo (.request { id := .number client.nextRequestId, method, params }) := rfl
  rw [McpConnection.incoming, same]
  cases client.replyTo (.request { id := .number client.nextRequestId, method, params }) with
  | error error => exact .nil _
  | ok reply =>
    have decides := exchangeOf_decides codec client reply
    have taken : McpHttpClient.exchangeOf codec { client with nextRequestId := client.nextRequestId + 1 } reply =
        client.exchangeOf codec reply := rfl
    simp only [exec_bind, exec_change, exec_ofExcept, taken]
    generalize client.exchangeOf codec reply = exchanged at decides ⊢
    cases exchanged with
    | error error => exact decides
    | ok exchange =>
      dsimp only [Except.bind, bind] at decides ⊢
      generalize jsonRpcResultFromResponse codec client.httpError exchange.response = result at decides ⊢
      cases result <;> exact decides

theorem requestExchange_decides (connection : McpConnection) (method : String) (params : Json) :
    Decides [] (connection.incoming codec method params) (connection.requestExchange codec method params).1 := by
  cases connection with
  | stdio client => exact stdioRequestExchange_decides codec client method params
  | http client => exact httpRequestExchange_decides codec client method params

theorem correlated_iff (connection : McpConnection) (method : String) (params : Json) (id : UInt64) :
    (∀ exchange, (connection.requestExchange codec method params).1 = .ok exchange →
      Correlated id (connection.incoming codec method params) exchange) ↔
      OwnAnswerFirst id (connection.incoming codec method params) := by
  have decides := requestExchange_decides codec connection method params
  constructor
  · intro correlated answer last carries
    obtain ⟨result, carried⟩ := Option.isSome_iff_exists.1 carries
    obtain ⟨before, incoming_eq⟩ := List.getLast?_eq_some_iff.1 last
    -- The message that the request stops at is what it returns.
    have complete : ∀ message ∈ before, Notifies message → (reported message).isSome := by
      have passed := decides.passed
      rw [incoming_eq, PassedOver, List.dropLast_concat] at passed
      exact passed
    have answered : Answered [] (connection.incoming codec method params) before answer
        ⟨result, before.filterMap reported⟩ := ⟨incoming_eq, carried, rfl, complete⟩
    obtain ⟨before', answer', other, own⟩ :=
      correlated _ ((decides.returns_iff _).2 ⟨before, answer, answered⟩)
    have same : before ++ [answer] = before' ++ [answer'] := incoming_eq.symm.trans other.incoming_eq
    rw [(List.cons.inj (List.append_inj' same rfl).2).1]
    exact own
  · intro first exchange returned
    obtain ⟨before, answer, answered⟩ := (decides.returns_iff _).1 returned
    refine ⟨before, answer, answered, first answer ?_ ?_⟩
    · rw [answered.incoming_eq, List.getLast?_concat]
    · rw [answered.response]
      rfl

end

/--
In every run, each request that returns is given its own answer with all notifications before it, just when
each request has its own answer before any other in what it reads.
-/
theorem correlation_iff (codec : McpCodec) (connection : McpConnection) (calls : List ClientCall) :
    (∀ request ∈ connection.requests codec calls,
      ∀ exchange, (request.1.requestExchange codec request.2.1 request.2.2).1 = .ok exchange →
        Correlated request.1.nextRequestId (request.1.incoming codec request.2.1 request.2.2) exchange) ↔
      ∀ request ∈ connection.requests codec calls,
        OwnAnswerFirst request.1.nextRequestId (request.1.incoming codec request.2.1 request.2.2) :=
  forall₂_congr fun request _ => correlated_iff codec request.1 request.2.1 request.2.2 request.1.nextRequestId

def lateResponse : Json :=
  .object [("jsonrpc", .string "2.0"), ("id", .number (.posInt 1)), ("result", .string "of the first request")]

def lateCodec : McpCodec where
  parse text := if text = "late" then some lateResponse else none
  render _ := "request"
  invalid _ := "expected value"

/-- A server that lets the first request time out and then responds to it. -/
def lateConnection : McpConnection :=
  .stdio { serverId := "slow", stdout := [.timedOut, .line "late\n"] }

/-- The second request is given the result of the response to the first one. -/
theorem late_response_taken :
    ∃ request ∈ lateConnection.requests lateCodec [.request "first" .null, .request "second" .null],
      ∃ exchange, (request.1.requestExchange lateCodec request.2.1 request.2.2).1 = .ok exchange ∧
        request.1.nextRequestId = 2 ∧ exchange.response = .string "of the first request" ∧
        ¬Correlated request.1.nextRequestId (request.1.incoming lateCodec request.2.1 request.2.2) exchange := by
  -- The first request leaves the connection with its response still to be read.
  let second := lateConnection.after lateCodec (.request "first" .null)
  have requests : lateConnection.requests lateCodec [.request "first" .null, .request "second" .null] =
      [(lateConnection, "first", .null), (second, "second", .null)] := rfl
  have incoming : second.incoming lateCodec "second" .null = [lateResponse] := by rfl
  refine ⟨(second, "second", .null), ?_, ⟨.string "of the first request", []⟩, ?_, rfl, rfl, ?_⟩
  · rw [requests]
    exact List.mem_cons_of_mem _ List.mem_cons_self
  · exact ((requestExchange_decides lateCodec second "second" .null).returns_iff _).2
      ⟨[], lateResponse, incoming, rfl, rfl, fun _ member => (nomatch member)⟩
  · rintro ⟨before, answer, answered, own⟩
    have split : [] ++ [lateResponse] = before ++ [answer] := incoming.symm.trans answered.incoming_eq
    rw [← (List.cons.inj (List.append_inj' split rfl).2).1] at own
    have late : (fromJson lateResponse).carriedId = some (.number 1) := rfl
    exact absurd (late.symm.trans own) (by decide)

end Codel00p.Mcp
