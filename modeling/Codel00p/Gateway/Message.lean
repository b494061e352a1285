import Codel00p.Gateway.Approvals
import Codel00p.Gateway.SessionState
import Codel00p.Harness.Embed

/-! Messages of conversations: control commands are answered, and all else is a turn of the agent. -/

namespace Codel00p.Gateway

/-- How the gateway is set up. -/
structure GatewayConfig where
  provider : Option String
  model : Option String
  sessions : SessionCodec

/-- What is kept between messages: the approvals that are awaited, and the sessions. -/
structure GatewayState where
  approvals : ApprovalStore := []
  sessions : SessionStore

/-- What a turn finds outside of the gateway. -/
structure TurnInput (ω : Type) where
  /-- Whether the working directory, the fallback routes, and the connectors are found. -/
  setup : Except String Unit := .ok ()
  agent : Except String (Agent ω)
  host : ω
  turnId : String
  now : Nat := 0
  /-- Whether files of the approval store can be removed. -/
  removable : Bool := true
  /-- How a write to the approval store fails, if it does. -/
  fault : ω → Option WriteFault := fun _ => none
  /-- What the user is told of an error of the agent. -/
  errorText : HarnessError → String := HarnessError.message

/-- A message of a conversation, with what it finds. -/
structure Inbound (ω : Type) where
  conversation : String
  user : String
  text : String
  input : TurnInput ω

/-- What came of a message: the reply, and the decisions and tool executions of the turn, if it was one. -/
structure Handled where
  reply : Except GatewayStop String
  trace : List Action := []

variable {ω : Type} (config : GatewayConfig)

def gatewayHarness (input : TurnInput ω) (agent : Agent ω) (conversation : String) :
    AgentHarness (GatewayHost ω) :=
  agent.harness.embed GatewayHost.host GatewayHost.withHost
    (gatewayApprovalPolicy agent.harness.codec input.fault conversation)

/-- What a turn that ended says. -/
def turnOutput (outcome : TurnOutcome) : String :=
  (match outcome.assistantMessage with
    | some message => message ++ "\n"
    | none => "")
  ++ if outcome.cancelled then "Interrupted — partial progress saved. Resume with `agent continue`.\n" else ""

/-- Run a turn of the agent on a session, and keep what is new. -/
def runAgentTurn (input : TurnInput ω) (conversation sessionId prompt : String) (granted : Option String)
    (state : GatewayState) : Handled × GatewayState :=
  match input.setup, prepareSessionState config.sessions state.sessions sessionId, input.agent with
  | .error error, _, _ => ({ reply := .error (.failed error) }, state)
  | .ok (), .error stop, _ => ({ reply := .error stop }, state)
  | .ok (), .ok _, .error error => ({ reply := .error (.failed error) }, state)
  | .ok (), .ok (session, previous), .ok agent =>
    let (ended, reached) := (gatewayHarness input agent conversation).runTurnWithState input.turnId session
      prompt { granted, host := input.host }
    let approvals := state.approvals.write reached.world.host.written
    let trace := reached.world.trace
    match ended with
    | .error (.failed error) => ({ reply := .error (.failed (input.errorText error)), trace }, { state with approvals })
    | .error .panicked => ({ reply := .error .panicked, trace }, { state with approvals })
    | .ok outcome =>
      let (kept, sessions) := Program.exec
        (persistTurnOutcome config.sessions input.now outcome.session outcome.events previous) state.sessions
      ({ reply := kept.map fun _ => turnOutput outcome, trace }, { approvals, sessions })

/-- What a user is asked about a request. -/
def approvalPrompt (pending : PendingApproval) : String :=
  "🔒 Approval needed to use `" ++ pending.tool ++ "`.\n" ++ pending.detail
    ++ "\nReply /approve to allow or /deny to reject.\n"

/-- A turn of a conversation; the user is asked about a request that it leaves behind. -/
def gatewayTurn (input : TurnInput ω) (conversation prompt : String) (granted : Option String)
    (state : GatewayState) : Handled × GatewayState :=
  match config.provider, config.model with
  | none, _ => ({ reply := .error (.failed "no provider configured; set agent.provider") }, state)
  | some _, none => ({ reply := .error (.failed "no model configured; set agent.model") }, state)
  | some _, some _ =>
    let (handled, state) := runAgentTurn config input conversation (conversationSessionId conversation) prompt
      granted state
    let reply := handled.reply.map fun reply =>
      match state.approvals.pending conversation with
      | some pending => approvalPrompt pending
      | none => reply
    ({ handled with reply }, state)

def approvedPrompt : String := "The remote user approved your pending request. Carry it out and report the result."

def gatewayResolve (input : TurnInput ω) (conversation : String) (approve : Bool) (state : GatewayState) :
    Handled × GatewayState :=
  let pending := state.approvals.pending conversation
  let (outcome, approvals) := state.approvals.resolve input.removable conversation approve
  let state := { state with approvals }
  match outcome with
  | .nothing => ({ reply := .ok "No permission request is pending.\n" }, state)
  | .denied =>
    let tool := (pending.map (·.tool)).getD "request"
    ({ reply := .ok ("Denied the pending request to use `" ++ tool ++ "`.\n") }, state)
  | .approved => gatewayTurn config input conversation approvedPrompt (pending.map (·.tool)) state

def runGatewayMessage (inbound : Inbound ω) (state : GatewayState) : Handled × GatewayState :=
  match parseCommand inbound.text with
  | .help => ({ reply := .ok (helpText ++ "\n") }, state)
  | .stop => ({ reply := .ok "Nothing is currently running.\n" }, state)
  | .approve => gatewayResolve config inbound.input inbound.conversation true state
  | .deny => gatewayResolve config inbound.input inbound.conversation false state
  | .message message =>
    -- A new message takes the place of a request that was not answered.
    let approvals := (state.approvals.resolve inbound.input.removable inbound.conversation false).2
    gatewayTurn config inbound.input inbound.conversation message none { state with approvals }

end Codel00p.Gateway
