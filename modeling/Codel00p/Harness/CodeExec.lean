import Codel00p.Harness.Event
import Codel00p.Harness.Pipeline

/-! Scripts whose tool calls are governed like direct tool calls. -/

namespace Codel00p

/--
What the script engine does with a program: it calls tools, one after the other, and ends.

The engine is a library of its own and bounds its work, so a run of it is a finite tree.
It may look at the host in between, as it does for its time limit.
-/
inductive Script (ω : Type) where
  | finish (answer : Except String Json)
  | observe (next : ω → Script ω)
  | call (tool : String) (input : Json) (next : Except String Json → Script ω)

/-- Max bytes of the JSON-encoded script return value surfaced to the model. -/
def maxResultBytes : Nat := 64 * 1024

/-- Max source length of the script itself. -/
def maxScriptBytes : Nat := 64 * 1024

def capResult (codec : JsonCodec) (value : Json) : Json × Bool :=
  let encoded := codec.render value
  if encoded.utf8ByteSize ≤ maxResultBytes then (value, false)
  else (.string (String.ofList (encoded.toList.take maxResultBytes) ++ "…[truncated]"), true)

/-- One governed tool call made by a script, for the result summary. -/
structure CallReport where
  tool : String
  ok : Bool
  scope : PermissionScope

/-- What a script run needs: its tools, the gate, the sink for audit events, and the script language. -/
structure CodeExecutionEngine (ω : Type) where
  codec : JsonCodec
  policy : PermissionPolicy ω
  subTools : ToolRegistry ω
  emit : HarnessEvent → ω → ω
  interpret : String → Script ω

namespace CodeExecutionEngine

variable {ω : Type} (engine : CodeExecutionEngine ω)

/-- The highest permission scope among the tools a script could call. -/
def maxScope : PermissionScope :=
  .strongest (engine.subTools.names.map fun name => engine.subTools.permissionScope name (.object []))

/-- Send an audit event of a script to the sink. -/
def audit (kind : EventKind) : HostM ω Unit :=
  let event : HarnessEvent := { sessionId := "execute_code", turnId := "execute_code", kind }
  Program.change fun world => { world with host := engine.emit event world.host }

/-- Dispatch one call of a script: what the script gets back, and whether the call succeeded. -/
def bridgeCall (seq : Nat) (tool : String) (input : Json) : HostM ω (Except String Json × Bool) := do
  let requestId := "execute_code-call-" ++ toString seq
  let scope := engine.subTools.permissionScope tool input
  engine.audit (.toolCallRequested tool)
  engine.audit (.permissionRequested tool requestId scope)
  match ← Program.attempt (dispatchTool engine.codec engine.policy engine.subTools tool input requestId) with
  | .error error =>
    -- The policy itself failed, which the script sees as a failed call.
    engine.audit (.toolCallFailed tool error.message)
    return (.error (tool ++ ": " ++ error.message), false)
  | .ok outcome =>
    if outcome.ok then
      engine.audit (.toolCallCompleted tool)
      return (.ok outcome.value, true)
    else
      let message := (outcome.value.getStr "error").getD "tool call failed"
      if outcome.value.getStr "error_kind" = some "permission_denied" then
        engine.audit (.permissionDenied tool requestId message)
      else engine.audit (.toolCallFailed tool message)
      return (.error (tool ++ ": " ++ message), false)

def runScript : Script ω → List CallReport → HostM ω (Except String Json × List CallReport)
  | .finish answer, reports => pure (answer, reports)
  | .observe next, reports => do
    let host ← Program.reads World.host
    runScript (next host) reports
  | .call tool input next, reports => do
    let (answer, ok) ← engine.bridgeCall reports.length tool input
    let scope := engine.subTools.permissionScope tool input
    runScript (next answer) (reports ++ [{ tool, ok, scope }])

/-- What the result says of one call. -/
def reportJson (report : CallReport) : Json :=
  .obj [("tool", .string report.tool), ("ok", .bool report.ok), ("scope", .string report.scope.label)]

/-- What the model is told of `execute_code`. -/
def description : String :=
  "Run a short Rhai script with full control flow (loops, conditionals, variables, try/catch) to "
    ++ "orchestrate tool calls in a single inference — use this instead of many round-trips when the "
    ++ "logic between calls is dynamic (filter results, branch, aggregate). Call tools from the script "
    ++ "with the bound functions: read-only `read_file(path)`, `list_files(dir)`, `search_text(query)`, "
    ++ "`find_files(pattern)`, `grep(pattern)`, `repo_map()`; and, when permitted, `create_file(path, "
    ++ "content)`, `update_file(path, content)`, `delete_file(path)`, `apply_patch(path, find, "
    ++ "replace)`, `run_command(program)`, and the `git_*` tools. There is also a generic "
    ++ "`call_tool(name, #\x7b ...args \x7d)`. Each returns a map (the tool's JSON result) and raises a "
    ++ "catchable error if the tool fails or is denied by the permission policy — every call is "
    ++ "permission-checked and audited exactly like a direct tool call. The script has NO filesystem, "
    ++ "network, or process access except through these bound tools. `return` a value "
    ++ "(number/string/array/map) to surface a result. The script is bounded in time and operations."

def schema : Json :=
  .obj [("type", .string "object"), ("required", .array [.string "code"]),
    ("properties", .obj [("code", .obj [("type", .string "string"),
      ("description", .string "The Rhai script to run.")])])]

/-- Run a short script whose tool calls are governed exactly like direct tool calls. -/
def executeCodeTool : Tool ω where
  name := "execute_code"
  description := description
  inputSchema := schema
  permissionScope _ := engine.maxScope
  execute input := do
    let code ← Program.ofExcept (requiredString "execute_code" input "code")
    if maxScriptBytes < code.utf8ByteSize then
      throw (.invalidToolInput "execute_code" ("script is " ++ toString code.utf8ByteSize
        ++ " bytes; the maximum is " ++ toString maxScriptBytes))
    let (answer, reports) ← engine.runScript (engine.interpret code) []
    match answer with
    | .error error => throw (.toolFailed "execute_code" ("script error: " ++ error))
    | .ok value =>
      let (result, truncated) := capResult engine.codec value
      return { content := .obj [("result", result), ("result_truncated", .bool truncated),
        ("calls", .array (reports.map reportJson)), ("call_count", .ofNat reports.length),
        ("calls_succeeded", .ofNat (reports.filter (·.ok)).length)] }

end CodeExecutionEngine

end Codel00p
