import Codel00p.Harness.Agent

/-! The tool calls of one reply: batches, decisions, executions, and what is recorded of them. -/

namespace Codel00p

def nextBatch (safe : ModelToolCall → Bool) (first : ModelToolCall) (rest : List ModelToolCall) :
    List ModelToolCall × List ModelToolCall :=
  if safe first then (first :: rest.takeWhile safe, rest.dropWhile safe) else ([first], rest)

def batches (safe : ModelToolCall → Bool) : Nat → List ModelToolCall → List (List ModelToolCall)
  | 0, _ => []
  | _ + 1, [] => []
  | fuel + 1, first :: rest =>
    (nextBatch safe first rest).1 :: batches safe fuel (nextBatch safe first rest).2

/-- The answer recorded for a call that was never scheduled. -/
def notScheduled : ToolAnswer :=
  .ok { content := .obj [("error", .string "tool execution was not scheduled")] }

def fillSlots (answers : List (Nat × ToolAnswer)) (slots : List (Option ToolAnswer)) :
    List (Option ToolAnswer) :=
  answers.foldl (fun slots (offset, answer) => slots.set offset (some answer)) slots

namespace AgentHarness

variable {ω : Type} (harness : AgentHarness ω) (turnId : String)

/-- Whether a call may run next to others. -/
def isSafe (call : ModelToolCall) : Bool := harness.tools.isConcurrencySafe call.name call.input

def permissionRequest (sessionId : String) (call : ModelToolCall) : PermissionRequest :=
  { requestId := "permission-" ++ call.id, sessionId, turnId, toolName := call.name,
    input := call.input, scope := harness.tools.permissionScope call.name call.input }

def decideCall (call : ModelToolCall) : TurnM ω (Except HarnessError PermissionDecision) :=
  Program.perform fun state =>
    let request := harness.permissionRequest turnId state.session.sessionId call
    let (outcome, world) := harness.permissionPolicy.ask (.model call.id) request state.world
    (outcome, { state with world })

def executeCall (call : ModelToolCall) : TurnM ω ToolAnswer :=
  Program.perform fun state =>
    let (answer, world) := Program.exec
      (harness.tools.execute harness.codec (.model call.id) call.name call.input) state.world
    (answer, { state with world }.note (.returned call answer))

/-- Sort the calls of a batch into denied ones with their results and those that may run, by offset. -/
def judge : List (ModelToolCall × Except HarnessError PermissionDecision) → Nat →
    TurnM ω (List (Nat × ToolAnswer) × List (Nat × ModelToolCall))
  | [], _ => pure ([], [])
  | (call, outcome) :: rest, offset => do
    let decision ← orFail outcome
    if decision.allowsExecution then
      let (denied, runnable) ← judge rest (offset + 1)
      return (denied, (offset, call) :: runnable)
    else
      harness.recordEvent turnId (.permissionDenied call.name decision.requestId decision.denialMessage)
      let (denied, runnable) ← judge rest (offset + 1)
      return ((offset, .ok { content := decision.denial }) :: denied, runnable)

/-- The result of a call before self-correction looks at it. -/
def plainResult (answer : ToolAnswer) : ToolResult :=
  match answer with
  | .ok result => result
  | .error error => { content := .obj [("error", .string error.message)] }

def settledResult (call : ModelToolCall) (answer : ToolAnswer) : ToolResult :=
  let content := (plainResult answer).content
  if resultIsFailure content && harness.selfCorrect.errorHints then
    { content := enrichFailure harness.codec content (failureMessage harness.codec content)
        (harness.tools.inputSchema call.name) }
  else plainResult answer

def reportAnswer (call : ModelToolCall) (answer : ToolAnswer) : TurnM ω PUnit := do
  match answer with
  | .ok result =>
    result.progress.forM fun (phase, message) =>
      harness.recordEvent turnId (.toolProgress call.name phase message)
    harness.recordEvent turnId (.toolCallCompleted call.name)
  | .error error => harness.recordEvent turnId (.toolCallFailed call.name error.message)

def graced (tracker : FailureTracker) (call : ModelToolCall) (content : Json) : Bool :=
  classifyKind (failureMessage harness.codec content) == .invalidInput
    && tracker.streak (operationSignature call.name call.input) == 0

def trackerAfter (tracker : FailureTracker) (call : ModelToolCall) (content : Json) : FailureTracker :=
  let signature := operationSignature call.name call.input
  if resultIsFailure content then
    if harness.graced tracker call content then tracker else tracker.recordFailure signature
  else tracker.recordSuccess signature

def trips (tracker : FailureTracker) (call : ModelToolCall) (content : Json) : Bool :=
  resultIsFailure content && !harness.graced tracker call content
    && harness.selfCorrect.replanOnFailure && decide (0 < harness.selfCorrect.failureBudget)
    && tracker.streak (operationSignature call.name call.input) + 1 == harness.selfCorrect.failureBudget

def accountFailure (call : ModelToolCall) (content : Json) : TurnM ω (Option String) := do
  let tracker ← Program.reads (·.failures)
  Program.change fun state => { state with failures := harness.trackerAfter tracker call content }
  if harness.trips tracker call content then
    let signature := operationSignature call.name call.input
    let message := failureMessage harness.codec content
    let attempts := tracker.streak signature + 1
    harness.recordEvent turnId (.failureBudgetExceeded signature attempts (classifyKind message).label)
    match replanNudge signature attempts message harness.planning with
    | none => throw .panicked
    | some nudge => return some nudge
  else return none

def settleCall (call : ModelToolCall) (answer : ToolAnswer) : TurnM ω (Option String) := do
  harness.reportAnswer turnId call answer
  let nudge ← harness.accountFailure turnId call (plainResult answer).content
  let result := harness.settledResult call answer
  let recorded ← withHost (harness.truncateOutput call.name (harness.codec.render result.content))
  Program.change fun state =>
    (state.push (.toolResult call.id call.name recorded)).note (.recorded call.id recorded)
  harness.runLifecycleHook turnId (.postTool call.name)
  Program.change fun state => { state with
    executed := state.executed ++ [{ id := call.id, name := call.name, input := call.input, result }] }
  return nudge

/-- Record the answers of a batch in the order of its calls, collecting the nudges. -/
def settleAll : List (ModelToolCall × ToolAnswer) → TurnM ω (List String)
  | [] => pure []
  | (call, answer) :: rest => do
    let nudge ← harness.settleCall turnId call answer
    let nudges ← settleAll rest
    return nudge.toList ++ nudges

/-- Ask for every call of a batch before any of them runs. -/
def decideBatch (batch : List ModelToolCall) :
    TurnM ω (List (Except HarnessError PermissionDecision)) := do
  batch.forM fun call => harness.recordEvent turnId (.toolCallRequested call.name)
  let sessionId ← Program.reads (·.session.sessionId)
  batch.forM fun call =>
    let request := harness.permissionRequest turnId sessionId call
    harness.recordEvent turnId (.permissionRequested call.name request.requestId request.scope)
  batch.mapM (harness.decideCall turnId)

/-- Run the calls that may run; the concurrent ones are taken in their order. -/
def executeBatch (calls : List ModelToolCall) : TurnM ω (List ToolAnswer) := do
  calls.forM fun call => harness.recordEvent turnId (.toolProgress call.name "started" none)
  calls.mapM harness.executeCall

def recordBatch (batch : List ModelToolCall) (last : Bool) (slots : List (Option ToolAnswer)) :
    TurnM ω PUnit := do
  Program.change fun state =>
    state.note (.batch { calls := batch, last, failures := state.failures, slots })
  let nudges ← harness.settleAll turnId (batch.zip (slots.map (·.getD notScheduled)))
  nudges.forM fun nudge => Program.change (·.push (.user nudge))

def runBatch (batch : List ModelToolCall) (last : Bool) : TurnM ω PUnit := do
  let outcomes ← harness.decideBatch turnId batch
  let (denied, runnable) ← harness.judge turnId (batch.zip outcomes) 0
  let answers ← harness.executeBatch turnId (runnable.map (·.2))
  harness.recordBatch turnId batch last (fillSlots ((runnable.map (·.1)).zip answers)
    (fillSlots denied (List.replicate batch.length none)))

def runBatches : List (List ModelToolCall) → TurnM ω PUnit
  | [] => pure ()
  | batch :: rest => do
    harness.runBatch turnId batch rest.isEmpty
    runBatches rest

def runToolCalls (calls : List ModelToolCall) : TurnM ω PUnit :=
  harness.runBatches turnId (batches harness.isSafe calls.length calls)

end AgentHarness

end Codel00p
