import Codel00p.Harness.CodeExec
import Codel00p.Lib.Except

/-! The tools a harness is assembled from: plain tools, pipelines, scripts, and capabilities. -/

namespace Codel00p

variable {ω : Type}

/--
A tool that does its own work and starts no other tool.

Every such tool of the harness has one scope, whatever its input.
-/
structure LeafTool (ω : Type) where
  name : String
  description : String := ""
  inputSchema : Json := .obj [("type", .string "object"), ("properties", .obj [])]
  isConcurrencySafe : Json → Bool := fun _ => false
  scope : PermissionScope := .workspaceWrite
  run : Json → ω → Except HarnessError ToolResult × ω

/-- A plain tool changes the host and nothing else. -/
def LeafTool.tool (leaf : LeafTool ω) : Tool ω where
  name := leaf.name
  description := leaf.description
  inputSchema := leaf.inputSchema
  isConcurrencySafe := leaf.isConcurrencySafe
  permissionScope _ := leaf.scope
  execute input := do
    let answer ← Program.within World.host (fun host world => { world with host }) (leaf.run input)
    Program.ofExcept answer

def ToolRegistry.All (property : Tool ω → Prop) (registry : ToolRegistry ω) : Prop :=
  ∀ name tool, registry.tools.lookup name = some tool → property tool

inductive Assembled (codec : JsonCodec) (policy : PermissionPolicy ω) : Tool ω → Prop where
  | leaf (leaf : LeafTool ω) : Assembled codec policy leaf.tool
  | pipeline (subTools : ToolRegistry ω)
      (parts : ∀ name tool, subTools.tools.lookup name = some tool → Assembled codec policy tool) :
      Assembled codec policy (runPipelineTool codec policy subTools)
  | capability (subTools : ToolRegistry ω)
      (parts : ∀ name tool, subTools.tools.lookup name = some tool → Assembled codec policy tool)
      (capability : Capability) (steps : List PipelineStep) :
      Assembled codec policy (capabilityTool codec policy subTools capability steps)
  | script (subTools : ToolRegistry ω)
      (parts : ∀ name tool, subTools.tools.lookup name = some tool → Assembled codec policy tool)
      (emit : HarnessEvent → ω → ω) (interpret : String → Script ω) :
      Assembled codec policy (CodeExecutionEngine.executeCodeTool { codec, policy, subTools, emit, interpret })

/-- What a harness is asked to register beyond the tools it is given. -/
structure Tooling (ω : Type) where
  programmaticTooling : Bool := false
  codeExecution : Bool := false
  capabilities : List Capability := []
  /-- The tool that describes the agent, when it is made self-aware. -/
  selfDescribe : Option (LeafTool ω) := none
  /-- The tool that queues capabilities for review, when there is a queue. -/
  proposeCapability : Option (LeafTool ω) := none

section

variable (codec : JsonCodec) (policy : PermissionPolicy ω) (base : ToolRegistry ω)

/-- Add `run_pipeline` over the base tools. -/
def addPipelines (enabled : Bool) (tools : ToolRegistry ω) : ToolRegistry ω :=
  if enabled then
    tools.withRegistry (({} : ToolRegistry ω).withTool (runPipelineTool codec policy base))
  else tools

/-- Add `execute_code` over the base tools. -/
def addScripts (emit : HarnessEvent → ω → ω) (interpret : String → Script ω) (enabled : Bool)
    (tools : ToolRegistry ω) : ToolRegistry ω :=
  if enabled then
    tools.withRegistry (({} : ToolRegistry ω).withTool
      (CodeExecutionEngine.executeCodeTool { codec, policy, subTools := base, emit, interpret }))
  else tools

def addCapabilities (capabilities : List Capability) (tools : ToolRegistry ω) :
    Except HarnessError (ToolRegistry ω) :=
  if capabilities.isEmpty then .ok tools
  else do return tools.withRegistry (← capabilityTools codec policy base capabilities)

def addLeaf (leaf : Option (LeafTool ω)) (tools : ToolRegistry ω) : ToolRegistry ω :=
  match leaf with
  | some leaf => tools.withTool leaf.tool
  | none => tools

def buildTools (emit : HarnessEvent → ω → ω) (interpret : String → Script ω) (tooling : Tooling ω) :
    Except HarnessError (ToolRegistry ω) := do
  let tools := addPipelines codec policy base tooling.programmaticTooling base
  let tools := addScripts codec policy base emit interpret tooling.codeExecution tools
  let tools ← addCapabilities codec policy base tooling.capabilities tools
  return addLeaf tooling.proposeCapability (addLeaf tooling.selfDescribe tools)

end

namespace ToolRegistry.All

variable {property : Tool ω → Prop}

theorem empty : All property {} := by
  intro name tool found
  simp at found

theorem withTool {registry : ToolRegistry ω} {tool : Tool ω} (all : All property registry)
    (fits : property tool) : All property (registry.withTool tool) := by
  intro name other found
  rcases Assoc.lookup_insert_cases found with rfl | before
  · exact fits
  · exact all name other before

theorem withRegistry {registry incoming : ToolRegistry ω} (all : All property registry)
    (others : ∀ entry ∈ incoming.tools, property entry.2) : All property (registry.withRegistry incoming) := by
  -- The entries are put in one by one, and each of them fits.
  have general : ∀ (entries : List (String × Tool ω)) (tools : List (String × Tool ω)),
      (∀ entry ∈ entries, property entry.2) →
      (∀ name tool, tools.lookup name = some tool → property tool) →
      ∀ name tool, (entries.foldl (fun tools entry => Assoc.insert entry.1 entry.2 tools) tools).lookup
        name = some tool → property tool := by
    intro entries
    induction entries with
    | nil => exact fun tools _ fits => fits
    | cons entry entries ih =>
      intro tools fine fits
      refine ih _ (fun other member => fine other (by simp [member])) ?_
      intro name tool found
      rcases Assoc.lookup_insert_cases found with rfl | before
      · exact fine entry (by simp)
      · exact fits name tool before
  exact general incoming.tools registry.tools others all

end ToolRegistry.All

variable {codec : JsonCodec} {policy : PermissionPolicy ω} {registry : ToolRegistry ω}

theorem capabilityTools_assembled {base : ToolRegistry ω} (parts : base.All (Assembled codec policy))
    {capabilities : List Capability} (built : capabilityTools codec policy base capabilities = .ok registry) :
    ∀ entry ∈ registry.tools, Assembled codec policy entry.2 := by
  -- The fold starts empty and puts in one capability at a time.
  have general : ∀ (rest : List Capability) (start : ToolRegistry ω),
      (∀ entry ∈ start.tools, Assembled codec policy entry.2) →
      rest.foldlM (fun registry capability => do
        let steps ← capability.validate
        return registry.withTool (capabilityTool codec policy base capability steps)) start = .ok registry →
      ∀ entry ∈ registry.tools, Assembled codec policy entry.2 := by
    intro rest
    induction rest with
    | nil =>
      intro start fits done
      cases done
      exact fits
    | cons capability rest ih =>
      intro start fits done
      rw [List.foldlM_cons] at done
      obtain ⟨next, made, goesOn⟩ := Except.bind_eq_ok.1 done
      obtain ⟨steps, _, returned⟩ := Except.bind_eq_ok.1 made
      cases returned
      refine ih _ ?_ goesOn
      intro entry member
      rcases Assoc.mem_insert member with rfl | before
      · exact .capability base parts capability steps
      · exact fits entry before
  exact general capabilities {} (by simp) built

theorem ToolRegistry.All.withSingle {property : Tool ω → Prop}
    {tool : Tool ω} (all : registry.All property) (fits : property tool) :
    (registry.withRegistry (({} : ToolRegistry ω).withTool tool)).All property := by
  refine all.withRegistry fun entry member => ?_
  rcases Assoc.mem_insert member with rfl | none
  · exact fits
  · simp at none

theorem addLeaf_assembled {tools : ToolRegistry ω}
    (all : tools.All (Assembled codec policy)) (leaf : Option (LeafTool ω)) :
    (addLeaf leaf tools).All (Assembled codec policy) := by
  cases leaf with
  | none => exact all
  | some leaf => exact all.withTool (.leaf leaf)

theorem buildTools_assembled {emit : HarnessEvent → ω → ω} {interpret : String → Script ω} {base : ToolRegistry ω}
    {tooling : Tooling ω} (parts : base.All (Assembled codec policy))
    (built : buildTools codec policy base emit interpret tooling = .ok registry) :
    registry.All (Assembled codec policy) := by
  -- Each option either leaves the registry alone or adds tools made over the base.
  have pipelines : (addPipelines codec policy base tooling.programmaticTooling base).All
      (Assembled codec policy) := by
    unfold addPipelines
    split
    · exact parts.withSingle (.pipeline base parts)
    · exact parts
  have scripts : (addScripts codec policy base emit interpret tooling.codeExecution
      (addPipelines codec policy base tooling.programmaticTooling base)).All
      (Assembled codec policy) := by
    rw [addScripts]
    split
    · exact pipelines.withSingle (.script base parts emit interpret)
    · exact pipelines
  obtain ⟨tools, added, returned⟩ := Except.bind_eq_ok.1 built
  cases returned
  refine addLeaf_assembled (addLeaf_assembled ?_ _) _
  unfold addCapabilities at added
  split at added
  · cases added
    exact scripts
  · obtain ⟨capabilities, frozen, folded⟩ := Except.bind_eq_ok.1 added
    cases folded
    exact scripts.withRegistry (capabilityTools_assembled parts frozen)

end Codel00p
