import Codel00p.Harness.Governance
import Codel00p.Harness.Recover
import Codel00p.Harness.SelfCorrect

/-! The agent harness: its configuration, its collaborators, and the state of a turn. -/

namespace Codel00p

/-- Something selected for the prompt: the names of its parts, and its text if it renders to any. -/
structure PromptSource where
  names : List String := []
  prompt : Option String := none

structure ContextWindowState where
  model : String
  contextLimitTokens : Nat
  usedTokens : Nat
  blockingThresholdTokens : Option Nat := none

/-- Whether the context has to be compacted before the next inference. -/
def ContextWindowState.isAtBlockingLimit (window : ContextWindowState) : Bool :=
  match window.blockingThresholdTokens with
  | some threshold => threshold ≤ window.usedTokens
  | none => false

/-- What the model is asked. -/
structure HarnessInferenceRequest where
  session : SessionState
  workspaceRoot : String := ""
  tools : List ToolSpec := []
  toolChoice : Option Json := none
  responseFormat : Option Json := none
  contextWindow : Option ContextWindowState := none
  persona : Option String := none
  agentSelf : Option String := none
  curatedMemory : Option String := none
  basePrompt : Option String := none
  projectInstructions : Option PromptSource := none
  projectMemory : Option PromptSource := none
  skills : Option PromptSource := none
  workspaceContext : Option String := none

structure HarnessInferenceResponse where
  provider : String
  model : String
  assistantMessage : Option String := none
  toolCalls : List ModelToolCall := []
  finishReason : Option String := none
  usage : Option TokenUsage := none
  cost : Option CostEstimate := none

structure ExecutedToolCall where
  id : String
  name : String
  input : Json
  result : ToolResult

structure TurnOutcome where
  assistantMessage : Option String
  toolCalls : List ExecutedToolCall
  events : List HarnessEvent
  session : SessionState
  cancelled : Bool

/-- Toggles of the verify-before-done phase. -/
structure VerifyConfig where
  selfVerify : Bool := false
  autoTest : Bool := false
  lintAndFix : Bool := false
  selfCritique : Bool := false
  verifyIterations : Nat := 0
  testCommand : Option String := none

structure SelfCorrectConfig where
  errorHints : Bool := false
  replanOnFailure : Bool := false
  failureBudget : Nat := 0

/-- Per-turn state of the verify-before-done phase. -/
structure VerifyState where
  attempts : Nat := 0
  critiqueInjected : Bool := false
  critiquePending : Bool := false
  executedAtCritique : Nat := 0
  lastVerified : Option Bool := none

/-- Where a lifecycle hook is called. -/
inductive HookPoint where
  | turnStarted
  | preInference
  | preCompact
  | turnCompleted
  | postTool (toolName : String)
  deriving DecidableEq, Repr

/-- The name a failing hook is reported under. -/
def HookPoint.label : HookPoint → String
  | .turnStarted => "turn_started"
  | .preInference => "pre_inference"
  | .preCompact => "pre_compact"
  | .turnCompleted => "turn_completed"
  | .postTool _ => "post_tool"

/-- What a hook is told of the turn. -/
structure TurnLifecycleContext where
  sessionId : String
  turnId : String
  messageCount : Nat

structure LifecycleHook (ω : Type) where
  run : HookPoint → TurnLifecycleContext → ω → Except HarnessError Unit × ω

structure CompletedTurn where
  context : TurnLifecycleContext
  goal : String
  assistantMessage : Option String
  calls : List ExecutedToolCall

/--
An extractor that runs when a turn is done: it finds what to submit,
and each submission goes to a review queue of its own.
-/
structure PostTurnStage (ω : Type) where
  extractionHook : String
  submissionHook : String
  extract : CompletedTurn → ω → Except HarnessError (List (ω → Except HarnessError Unit × ω)) × ω

/-- What the agent is told about itself. -/
structure AgentSelfState where
  iteration : Nat
  maxIterations : Nat
  usage : Option TokenUsage
  contextWindowTokens : Option Nat

/-- The agent harness with everything it calls. -/
structure AgentHarness (ω : Type) where
  codec : JsonCodec
  tools : ToolRegistry ω
  permissionPolicy : PermissionPolicy ω
  infer : HarnessInferenceRequest → ω → Except HarnessError HarnessInferenceResponse × ω
  isCancelled : ω → Bool × ω := fun host => (false, host)
  emit : HarnessEvent → ω → ω := fun _ host => host
  lifecycleHooks : List (LifecycleHook ω) := []
  postTurnStages : List (PostTurnStage ω) := []
  loadInstructions : ω → Except HarnessError PromptSource × ω := fun host => (.ok {}, host)
  retrieveMemory :
    Option (TurnLifecycleContext → String → ω → Except HarnessError PromptSource × ω) := none
  selectSkills :
    Option (TurnLifecycleContext → String → ω → Except HarnessError PromptSource × ω) := none
  describeSelf : Option (AgentSelfState → ω → Option String × ω) := none
  gatherWorkspace : Option (List ExecutedToolCall → ω → Option String × ω) := none
  detectTest : ω → Option String := fun _ => none
  truncateOutput : String → String → ω → String × ω := fun _ text host => (text, host)
  workspaceRoot : String := ""
  toolChoice : Option Json := none
  responseFormat : Option Json := none
  contextWindow : Option ContextWindowState := none
  persona : Option String := none
  curatedMemory : Option String := none
  basePrompt : Option String := none
  planning : Bool := false
  maxIterations : Nat
  verify : VerifyConfig := {}
  selfCorrect : SelfCorrectConfig := {}

abbrev ToolAnswer := Except HarnessError ToolResult

/-- What was known when a batch of calls had been answered and was about to be recorded. -/
structure BatchNote where
  calls : List ModelToolCall
  /-- Whether the batch is the last one of its reply. -/
  last : Bool
  failures : FailureTracker
  slots : List (Option ToolAnswer)

/-- What an observer of a turn sees beyond permissions and executions. -/
inductive TurnNote (ω : Type) where
  | asked (request : HarnessInferenceRequest)
  | replied (reply : HarnessInferenceResponse) (salvaged : Option ModelToolCall)
  | returned (call : ModelToolCall) (answer : ToolAnswer)
  | batch (note : BatchNote)
  | recorded (callId content : String)
  | compacted
  /-- The model said it was done, with what the harness knew at that point. -/
  | donePoint (verify : VerifyState) (executed : List ExecutedToolCall) (host : ω)

structure TurnState (ω : Type) where
  world : World ω
  session : SessionState
  executed : List ExecutedToolCall := []
  failures : FailureTracker := {}
  verify : VerifyState := {}
  usage : Option TokenUsage := none
  cost : Option CostEstimate := none
  events : List HarnessEvent := []
  log : List (TurnNote ω) := []

/-- Why a turn ends without an outcome. -/
inductive TurnStop where
  | failed (error : HarnessError)
  /-- A text was cut inside a character. -/
  | panicked
  deriving DecidableEq, Repr

abbrev TurnM (ω : Type) := Program TurnStop (TurnState ω)

namespace TurnState

variable {ω : Type} (state : TurnState ω)

/-- Replace the state of the collaborators. -/
def withHost (host : ω) : TurnState ω := { state with world := { state.world with host } }

def note (observed : TurnNote ω) : TurnState ω := { state with log := state.log ++ [observed] }

def push (message : SessionMessage) : TurnState ω := { state with session := state.session.pushMessage message }

end TurnState

namespace AgentHarness

variable {ω : Type} (harness : AgentHarness ω) (turnId : String)

/-- Call a collaborator. -/
def withHost {α : Type} (operation : ω → α × ω) : TurnM ω α :=
  Program.within (·.world.host) (fun host state => state.withHost host) operation

/-- Go on with a collaborator's answer, or fail the turn with its error. -/
def orFail {α : Type} (outcome : Except HarnessError α) : TurnM ω α :=
  match outcome with
  | .ok value => pure value
  | .error error => throw (.failed error)

/-- Send an event to the sink and keep it. -/
def recordEvent (kind : EventKind) : TurnM ω Unit :=
  Program.change fun state =>
    let event : HarnessEvent := { sessionId := state.session.sessionId, turnId, kind }
    { state.withHost (harness.emit event state.world.host) with events := state.events ++ [event] }

/-- What hooks and providers are told of the turn right now. -/
def lifecycleContext : TurnM ω TurnLifecycleContext :=
  Program.reads fun state =>
    { sessionId := state.session.sessionId, turnId, messageCount := state.session.messages.length }

def runLifecycleHook (point : HookPoint) : TurnM ω PUnit := do
  let context ← lifecycleContext turnId
  harness.lifecycleHooks.forM fun hook => do
    match ← withHost (hook.run point context) with
    | .ok _ => pure ()
    | .error error => harness.recordEvent turnId (.lifecycleHookFailed point.label error.message)

def compactionDue (messages : List SessionMessage) : Bool :=
  (harness.contextWindow.map (·.isAtBlockingLimit)).getD false
    && defaultCompactionRecentMessages + 1 < messages.length

def compactContextIfNeeded : TurnM ω PUnit := do
  let messages ← Program.reads (·.session.messages)
  if harness.compactionDue messages then
    harness.runLifecycleHook turnId .preCompact
    match summarizeCompactedMessages messages defaultCompactionRecentMessages with
    | none => throw .panicked
    | some summary =>
      Program.change fun state => { state.note .compacted with
        session := state.session.compactWithSummary summary defaultCompactionRecentMessages }
      let after ← Program.reads (·.session.messages.length)
      harness.recordEvent turnId (.contextCompacted messages.length after (some summary))
  else pure ()

def runPostTurnStage (completed : CompletedTurn) (stage : PostTurnStage ω) : TurnM ω PUnit := do
  match ← withHost (stage.extract completed) with
  | .error error => harness.recordEvent turnId (.lifecycleHookFailed stage.extractionHook error.message)
  | .ok submissions =>
    submissions.forM fun submission => do
      match ← withHost submission with
      | .ok _ => pure ()
      | .error error =>
        harness.recordEvent turnId (.lifecycleHookFailed stage.submissionHook error.message)

end AgentHarness

end Codel00p
