import Mathlib.Data.List.Sort
import Codel00p.Harness.Coerce
import Codel00p.Lib.Program

/-! The registry of tools: lookup, scopes, the deferred catalog, and execution. -/

namespace Codel00p

inductive Caller where
  /-- A tool call of the model, by its id. -/
  | model (callId : String)
  /-- A pipeline step, capability step, or script call, by the id of its permission request. -/
  | program (requestId : String)
  /-- The checks the harness runs on its own before a turn is done. -/
  | verification
  deriving DecidableEq, Repr

/-- What an observer sees of permissions and executions. -/
inductive Action where
  /-- The policy was asked and answered, or failed to. -/
  | decided (caller : Caller) (request : PermissionRequest)
      (outcome : Except HarnessError PermissionDecision)
  /-- The body of a tool was started on the arguments it was handed for a call's raw input. -/
  | started (caller : Caller) (tool : String) (raw handed : Json)

/-- The world the harness runs in: the state of its collaborators and what happened so far. -/
structure World (ω : Type) where
  host : ω
  trace : List Action := []

abbrev HostM (ω : Type) := Program HarnessError (World ω)

/-- Note what happened. -/
def record {ω : Type} (action : Action) : HostM ω Unit :=
  Program.change fun world => { world with trace := world.trace ++ [action] }

structure Tool (ω : Type) where
  name : String
  description : String
  inputSchema : Json
  isConcurrencySafe : Json → Bool := fun _ => false
  permissionScope : Json → PermissionScope := fun _ => .workspaceWrite
  execute : Json → HostM ω ToolResult

/-- A tool's model-facing definition. -/
structure ToolSpec where
  name : String
  description : String
  inputSchema : Json

/-- The definition of a tool for the model. -/
def Tool.spec {ω : Type} (tool : Tool ω) : ToolSpec :=
  { name := tool.name, description := tool.description, inputSchema := tool.inputSchema }

/-- The tools by name, and the names of those kept out of the prompt. -/
structure ToolRegistry (ω : Type) where
  tools : List (String × Tool ω) := []
  deferred : List String := []

/-- The synthetic tool that searches the deferred catalog. -/
def toolSearch : String := "tool_search"

/-- The synthetic tool that returns full schemas for hidden tools. -/
def toolDescribe : String := "tool_describe"

/-- Default for the number of hits a search returns. -/
def defaultSearchLimit : Nat := 25

/-- Ceiling for the number of hits a search returns. -/
def maxSearchLimit : Nat := 100

/-- Score a tool against query terms: negative filters it out, and no terms list everything. -/
def scoreMatch (name description : String) (terms : List String) : Int :=
  if terms.isEmpty then 0
  else
    let nameLower := toAsciiLowercase name
    let descriptionLower := toAsciiLowercase description
    let (score, matchedAny) := terms.foldl (fun ((score, matchedAny) : Int × Bool) term =>
      let (score, matchedAny) :=
        if containsText nameLower term then (score + if nameLower = term then 100 else 10, true)
        else (score, matchedAny)
      if containsText descriptionLower term then (score + 1, true) else (score, matchedAny)) (0, false)
    if matchedAny then score else -1

def toolSearchSpec (deferredCount : Nat) : ToolSpec :=
  { name := toolSearch,
    description :=
      "Discover tools that are available but not listed above. " ++ toString deferredCount ++
      " additional tools (for example large MCP tool collections) are kept out of the prompt to "
      ++ "save context. Search them by keyword over their names and descriptions; pass no `query` "
      ++ "to list them all (capped by `limit`). Then call `tool_describe` to load a tool's full "
      ++ "input schema before invoking it by name.",
    inputSchema := .obj [("type", .string "object"), ("properties", .obj [
      ("query", .obj [("type", .string "string")]),
      ("limit", .obj [("type", .string "integer"), ("minimum", .ofNat 1), ("maximum", .ofNat maxSearchLimit)])])] }

def toolDescribeSpec : ToolSpec :=
  { name := toolDescribe,
    description :=
      "Return the full description and JSON input schema for one or more tools by name (typically "
      ++ "tools found via `tool_search`). Call this before invoking a previously hidden tool so you "
      ++ "know its parameters.",
    inputSchema := .obj [("type", .string "object"), ("required", .array [.string "names"]),
      ("properties", .obj [("names", .obj [("type", .string "array"),
        ("items", .obj [("type", .string "string")])])])] }

namespace ToolRegistry

variable {ω : Type} (registry : ToolRegistry ω)

def withTool (tool : Tool ω) : ToolRegistry ω :=
  { tools := Assoc.insert tool.name tool registry.tools,
    deferred := registry.deferred.filter (· ≠ tool.name) }

def deferName (deferred : List String) (name : String) : List String :=
  if name ∈ deferred then deferred else deferred.orderedInsert (· ≤ ·) name

def withRegistry (incoming : ToolRegistry ω) : ToolRegistry ω :=
  let advertised := registry.deferred.filter fun name => (incoming.tools.lookup name).isNone
  { tools := incoming.tools.foldl (fun tools (name, tool) => Assoc.insert name tool tools) registry.tools,
    deferred := incoming.deferred.foldl (fun deferred name =>
      if (registry.tools.lookup name).isSome then deferred else deferName deferred name) advertised }

/-- Insert a tool that is executable but not advertised. -/
def withDeferredTool (tool : Tool ω) : ToolRegistry ω :=
  { tools := Assoc.insert tool.name tool registry.tools,
    deferred := deferName registry.deferred tool.name }

def withDeferredRegistry (incoming : ToolRegistry ω) : ToolRegistry ω :=
  { tools := incoming.tools.foldl (fun tools (name, tool) => Assoc.insert name tool tools) registry.tools,
    deferred := incoming.tools.foldl (fun deferred (name, _) => deferName deferred name) registry.deferred }

/-- Hide every tool that is not kept, when there are more tools than the threshold. -/
def withProgressiveDisclosure (threshold : Nat) (keepAdvertised : List String) : ToolRegistry ω :=
  if registry.tools.length ≤ threshold then registry
  else
    { registry with
      deferred := registry.tools.foldl (fun deferred (name, _) =>
        if name ∈ keepAdvertised then deferred else deferName deferred name) registry.deferred }

def names : List String := registry.tools.map (·.1)

def inputSchema (name : String) : Option Json := (registry.tools.lookup name).map (·.inputSchema)

def advertisedSpecs : List ToolSpec :=
  let specs := (registry.tools.filter fun (name, _) => name ∉ registry.deferred).map (·.2.spec)
  let synthetic := fun (spec : ToolSpec) =>
    if registry.deferred.isEmpty || (registry.tools.lookup spec.name).isSome then [] else [spec]
  specs ++ synthetic (toolSearchSpec registry.deferred.length) ++ synthetic toolDescribeSpec

def isMetaTool (name : String) : Bool :=
  !registry.deferred.isEmpty && (registry.tools.lookup name).isNone && (name == toolSearch || name == toolDescribe)

/-- Whether calls may run next to each other. -/
def isConcurrencySafe (name : String) (input : Json) : Bool :=
  if registry.isMetaTool name then true
  else
    match registry.tools.lookup name with
    | some tool => tool.isConcurrencySafe input
    | none => false

/-- The scope a call is decided on. -/
def permissionScope (name : String) (input : Json) : PermissionScope :=
  if registry.isMetaTool name then .readOnly
  else
    match registry.tools.lookup name with
    | some tool => tool.permissionScope input
    | none => .externalConnector

/-- Search the deferred catalog by free text over names and descriptions. -/
def runToolSearch (input : Json) : Except HarnessError ToolResult :=
  let query := toAsciiLowercase (trim ((input.getStr "query").getD ""))
  let limit := min maxSearchLimit (max 1 (((input.get "limit").bind Json.asU64).getD defaultSearchLimit))
  let terms := splitPieces isWhitespace query
  let scored := registry.deferred.filterMap fun name =>
    match registry.tools.lookup name with
    | none => none
    | some tool =>
      let score := scoreMatch name tool.description terms
      if score < 0 then none else some (score, name, tool.description)
  -- Highest score first, then alphabetical by name.
  let ranked := scored.mergeSort fun a b => a.1 > b.1 || (a.1 == b.1 && a.2.1 ≤ b.2.1)
  let tools := (ranked.take limit).map fun (_, name, description) =>
    Json.obj [("name", .string name), ("description", .string description)]
  .ok { content := .obj [("tools", .array tools), ("total_matches", .ofNat ranked.length),
    ("deferred_total", .ofNat registry.deferred.length),
    ("truncated", .bool (decide (limit < ranked.length)))] }

def describe (name : String) : Json :=
  match registry.tools.lookup name with
  | some tool =>
    .obj [("name", .string name), ("description", .string tool.description), ("input_schema", tool.inputSchema)]
  | none => .obj [("name", .string name), ("error", .string "unknown tool")]

def runToolDescribe (input : Json) : Except HarnessError ToolResult := do
  let names ← match (input.get "names").bind Json.asArray with
    | some names => pure names
    | none => throw (.invalidToolInput toolDescribe "missing array field `names`")
  if names.isEmpty then throw (.invalidToolInput toolDescribe "`names` must not be empty")
  let described ← names.mapM fun name =>
    match name.asStr with
    | some name => pure (registry.describe name)
    | none => throw (.invalidToolInput toolDescribe "`names` must be an array of strings")
  return { content := .obj [("tools", .array described)] }

variable (codec : JsonCodec)

/-- Repair the arguments, check them, and run the tool on them. -/
def execute (caller : Caller) (name : String) (input : Json) : HostM ω ToolResult :=
  if registry.isMetaTool name then
    -- The synthetic tools are answered from the catalog and need no backing tool.
    if name = toolSearch then Program.ofExcept (registry.runToolSearch input)
    else Program.ofExcept (registry.runToolDescribe input)
  else
    match registry.tools.lookup name with
    | none => throw (.toolNotFound name)
    | some tool => do
      let handed := coerceToolInput codec tool.inputSchema input
      Program.ofExcept (validateToolInput name tool.inputSchema handed)
      record (.started caller name input handed)
      tool.execute handed

/-- The arguments a call's tool body is handed, if the call gets that far. -/
def handed (name : String) (input : Json) : Option Json :=
  match registry.tools.lookup name with
  | none => none
  | some tool =>
    let handed := coerceToolInput codec tool.inputSchema input
    match validateToolInput name tool.inputSchema handed with
    | .ok () => some handed
    | .error _ => none

end ToolRegistry

end Codel00p
