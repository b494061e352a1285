import Codel00p.Harness.Registry
import Codel00p.Harness.Template

/-! Governed dispatch, pipelines of tool calls, and capabilities frozen from them. -/

namespace Codel00p

/-- Who decides which tool calls may run. -/
structure PermissionPolicy (ω : Type) where
  decide : PermissionRequest → ω → Except HarnessError PermissionDecision × ω

/-- The policy that lets everything pass. -/
def allowAllPermissionPolicy {ω : Type} : PermissionPolicy ω where
  decide request host := (.ok (.allow request.requestId .allow), host)

def PermissionPolicy.ask {ω : Type} (policy : PermissionPolicy ω) (caller : Caller)
    (request : PermissionRequest) (world : World ω) :
    Except HarnessError PermissionDecision × World ω :=
  let (outcome, host) := policy.decide request world.host
  (outcome, { host, trace := world.trace ++ [.decided caller request outcome] })

structure PipelineStep where
  id : Option String
  tool : String
  input : Json

/-- Hard ceiling on the number of steps in one pipeline. -/
def maxSteps : Nat := 32

def parseStep (toolName : String) (value : Json) (index : Nat) : Except HarnessError PipelineStep := do
  let tool ← requiredString toolName value "tool"
  let input := (value.get "input").getD (.object [])
  match input with
  | .object _ => return { id := value.getStr "id", tool, input }
  | _ =>
    throw (.invalidToolInput toolName ("step " ++ toString index ++ ": `input` must be an object"))

def parseSteps (toolName : String) (steps : List Json) : Except HarnessError (List PipelineStep) :=
  if steps.isEmpty then .error (.invalidToolInput toolName "`steps` must not be empty")
  else if maxSteps < steps.length then
    .error (.invalidToolInput toolName ("pipeline has " ++ toString steps.length
      ++ " steps; the maximum is " ++ toString maxSteps))
  else steps.zipIdx.mapM fun (value, index) => parseStep toolName value index

/-- The outcome of one governed dispatch: the tool's content, or a structured error. -/
structure DispatchOutcome where
  ok : Bool
  value : Json

/-- The result of running a pipeline. -/
structure PipelineRun where
  reports : List Json := []
  completed : Nat := 0
  total : Nat
  stoppedEarly : Bool := false

section

variable {ω : Type} (codec : JsonCodec) (policy : PermissionPolicy ω) (subTools : ToolRegistry ω)

def programRequest (tool : String) (input : Json) (requestId : String) : PermissionRequest :=
  { requestId, sessionId := "programmatic", turnId := "programmatic", toolName := tool, input,
    scope := subTools.permissionScope tool input }

def dispatchTool (tool : String) (input : Json) (requestId : String) : HostM ω DispatchOutcome := do
  let outcome ← Program.perform (policy.ask (.program requestId) (programRequest subTools tool input requestId))
  let decision ← Program.ofExcept outcome
  if !decision.allowsExecution then
    return { ok := false, value := decision.denial }
  match ← Program.attempt (subTools.execute codec (.program requestId) tool input) with
  | .ok result => return { ok := true, value := result.content }
  | .error error => return { ok := false, value := .obj [("error", .string error.message)] }

def maxStepScope (steps : List PipelineStep) : PermissionScope :=
  .strongest (steps.map fun step => subTools.permissionScope step.tool step.input)

/-- The context of later references once a step has an output, or null for a failure. -/
def recordOutput (context : List (String × Json)) (id : Option String) (value : Json) :
    List (String × Json) :=
  let context := match context.lookup "steps" with
    | some (.array items) => Assoc.insert "steps" (.array (items ++ [value])) context
    | _ => context
  match id with
  | some id => Assoc.insert id value context
  | none => context

/-- What the result says of one step. -/
def stepReport (index : Nat) (step : PipelineStep) (scope : PermissionScope)
    (outcome : DispatchOutcome) : Json :=
  .obj ([("index", .ofNat index)]
    ++ (step.id.map fun id => ("id", Json.string id)).toList
    ++ [("tool", .string step.tool), ("scope", .string scope.label), ("ok", .bool outcome.ok),
      (if outcome.ok then "output" else "error", outcome.value)])

def runSteps (stopOnError : Bool) (idLabel : String) :
    List PipelineStep → Nat → List (String × Json) → PipelineRun → HostM ω PipelineRun
  | [], _, _, run => pure run
  | step :: steps, index, context, run => do
    let resolved := resolveReferences codec context step.input
    let scope := subTools.permissionScope step.tool resolved
    let outcome ← dispatchTool codec policy subTools step.tool resolved (idLabel ++ "-step-" ++ toString index)
    let context := recordOutput context step.id (if outcome.ok then outcome.value else .null)
    let run := { run with reports := run.reports ++ [stepReport index step scope outcome] }
    if outcome.ok then
      runSteps stopOnError idLabel steps (index + 1) context { run with completed := run.completed + 1 }
    else if stopOnError then return { run with stoppedEarly := true }
    else runSteps stopOnError idLabel steps (index + 1) context run

def runPipeline (steps : List PipelineStep) (stopOnError : Bool) (idLabel : String)
    (initialContext : List (String × Json)) : HostM ω PipelineRun :=
  runSteps codec policy subTools stopOnError idLabel steps 0
    (Assoc.insert "steps" (.array []) initialContext) { total := steps.length }

def pipelineSteps (input : Json) : Except HarnessError (List PipelineStep) :=
  match (input.get "steps").bind Json.asArray with
  | some steps => parseSteps "run_pipeline" steps
  | none => .error (.invalidToolInput "run_pipeline" "missing array field `steps`")

def stepSchema : Json :=
  .obj [("type", .string "object"), ("required", .array [.string "tool"]),
    ("properties", .obj [("tool", .obj [("type", .string "string")]),
      ("input", .obj [("type", .string "object")]), ("id", .obj [("type", .string "string")])])]

def pipelineSchema : Json :=
  .obj [("type", .string "object"), ("required", .array [.string "steps"]),
    ("properties", .obj [("steps", .obj [("type", .string "array"), ("items", stepSchema)]),
      ("stop_on_error", .obj [("type", .string "boolean")])])]

/-- What the model is told of `run_pipeline`. -/
def pipelineDescription : String :=
  "Run several tool calls as one governed pipeline in a single step, instead of one model round-trip "
    ++ "per call. `steps` is an ordered list of \x7b tool, input, id? \x7d. A later step can reference "
    ++ "an earlier step's output with a `\x7b\x7b...\x7d\x7d` template inside any string input value — "
    ++ "by index (`\x7b\x7bsteps.0.content\x7d\x7d`) or by a step's `id` "
    ++ "(`\x7b\x7breadme.content\x7d\x7d`). A template that is the entire string resolves to the "
    ++ "referenced JSON value (so you can forward arrays/objects); embedded templates are stringified. "
    ++ "Every step is permission-checked and dispatched exactly like a direct tool call. By default the "
    ++ "pipeline stops at the first failing step; set `stop_on_error` to false to run the rest anyway. "
    ++ "Use this for a fixed, ordered chain of calls; when the logic between calls is dynamic (loops, "
    ++ "conditionals, filtering or aggregating results), prefer `execute_code`."

/-- Run a declared sequence of governed tool calls in one inference. -/
def runPipelineTool : Tool ω where
  name := "run_pipeline"
  description := pipelineDescription
  inputSchema := pipelineSchema
  permissionScope input :=
    match pipelineSteps input with
    | .ok steps => maxStepScope subTools steps
    | .error _ => .readOnly
  execute input := do
    let steps ← Program.ofExcept (pipelineSteps input)
    let stopOnError := ((input.get "stop_on_error").bind Json.asBool).getD true
    let run ← runPipeline codec policy subTools steps stopOnError "pipeline" []
    return { content := .obj [("steps", .array run.reports), ("completed", .ofNat run.completed),
      ("total", .ofNat run.total), ("stopped_early", .bool run.stoppedEarly)] }

end

/-- A frozen, parameterized pipeline that the agent can call as a single tool. -/
structure Capability where
  name : String
  description : String
  parameters : Json := .obj [("type", .string "object"), ("properties", .obj [])]
  steps : List Json

def isValidToolName (name : String) : Bool :=
  match name.toList with
  | [] => false
  | first :: rest =>
    first.isLower && rest.all (fun c => c.isLower || c.isDigit || c == '_') && name.utf8ByteSize ≤ 64

/-- Check a capability's shape and read its steps. -/
def Capability.validate (capability : Capability) : Except HarnessError (List PipelineStep) := do
  let invalid := fun message => HarnessError.invalidToolInput "propose_capability" message
  if !isValidToolName capability.name then
    throw (invalid ("`" ++ capability.name ++ "` is not a valid capability name (use lowercase "
      ++ "letters, digits, and underscores; start with a letter)"))
  if isBlank capability.description then throw (invalid "`description` must not be empty")
  match capability.parameters with
  | .object _ => parseSteps capability.name capability.steps
  | _ => throw (invalid "`parameters` must be a JSON Schema object")

section

variable {ω : Type} (codec : JsonCodec) (policy : PermissionPolicy ω) (subTools : ToolRegistry ω)

def capabilityTool (capability : Capability) (steps : List PipelineStep) : Tool ω where
  name := capability.name
  description := capability.description
  inputSchema := capability.parameters
  permissionScope _ := maxStepScope subTools steps
  execute input := do
    -- The call's arguments are what the frozen steps refer to as their parameters.
    let run ← runPipeline codec policy subTools steps true ("capability-" ++ capability.name) [("params", input)]
    return { content := .obj [("capability", .string capability.name),
      ("ok", .bool (run.completed == run.total && !run.stoppedEarly)), ("steps", .array run.reports),
      ("completed", .ofNat run.completed), ("total", .ofNat run.total)] }

def capabilityTools (capabilities : List Capability) : Except HarnessError (ToolRegistry ω) :=
  capabilities.foldlM (fun registry capability => do
    let steps ← capability.validate
    return registry.withTool (capabilityTool codec policy subTools capability steps)) {}

end

end Codel00p
