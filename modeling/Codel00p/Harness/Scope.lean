import Codel00p.Harness.Assembly

/-! How the scope a call is decided on relates to the scope of the arguments its tool is handed. -/

namespace Codel00p

variable {ω : Type}

theorem ToolRegistry.permissionScope_of_lookup {registry : ToolRegistry ω} {name : String}
    {tool : Tool ω} (found : registry.tools.lookup name = some tool) (input : Json) :
    registry.permissionScope name input = tool.permissionScope input := by
  have registered : registry.isMetaTool name = false := by simp [isMetaTool, found]
  simp [permissionScope, registered, found]

def StepsArrive (raw : Json) : Prop := ∃ items, raw.get "steps" = some (.array items)

variable {raw : Json}

theorem pipelineSteps_coerced (codec : JsonCodec) (arrive : StepsArrive raw) :
    pipelineSteps (coerceToolInput codec pipelineSchema raw) = pipelineSteps raw := by
  obtain ⟨items, steps⟩ := arrive
  -- Only an object has a field, so nothing is decoded before the field is coerced.
  have object : decodeJsonObjectString codec raw = raw := by
    cases raw with
    | string text => exact nomatch steps
    | _ => rfl
  have kept : (coerceToolInput codec pipelineSchema raw).get "steps" = some (.array items) := by
    rw [get_coerceToolInput codec rfl rfl, object, steps]
    rfl
  simp [pipelineSteps, kept, steps]

theorem pipelineScope_of_not_arrive (codec : JsonCodec) (policy : PermissionPolicy ω)
    (subTools : ToolRegistry ω) (arrive : ¬StepsArrive raw) :
    (runPipelineTool codec policy subTools).permissionScope raw = .readOnly := by
  have unseen : (raw.get "steps").bind Json.asArray = none := by
    cases found : raw.get "steps" with
    | none => rfl
    | some value =>
      cases value with
      | array items => exact absurd ⟨items, found⟩ arrive
      | _ => rfl
  simp [runPipelineTool, pipelineSteps, unseen]

theorem pipelineScope_eq_readOnly (codec : JsonCodec) (policy : PermissionPolicy ω)
    (subTools : ToolRegistry ω) (input : Json) :
    (runPipelineTool codec policy subTools).permissionScope input = .readOnly ↔
      ∀ steps, pipelineSteps input = .ok steps →
        ∀ step ∈ steps, subTools.permissionScope step.tool step.input = .readOnly := by
  cases parsed : pipelineSteps input with
  | error error => simp [runPipelineTool, parsed]
  | ok steps => simp [runPipelineTool, parsed, maxStepScope, PermissionScope.strongest_eq_readOnly]

theorem ToolRegistry.handed_eq_some {codec : JsonCodec} {registry : ToolRegistry ω} {name : String}
    {given : Json} {tool : Tool ω} (found : registry.tools.lookup name = some tool)
    (handed : registry.handed codec name raw = some given) : given = coerceToolInput codec tool.inputSchema raw := by
  simp only [ToolRegistry.handed, found] at handed
  split at handed
  · exact (Option.some.inj handed).symm
  · exact nomatch handed

/--
A call is decided on a scope at least as strong as that of the arguments its tool is handed,
except for pipelines whose steps only appear once the arguments are repaired.

The exception is exact: such a pipeline is decided on as if it only read,
so the decision is strong enough just when each of its steps only reads.
-/
theorem decided_scope_covers_iff {codec : JsonCodec} {policy : PermissionPolicy ω}
    {registry : ToolRegistry ω} (assembled : registry.All (Assembled codec policy)) (name : String) (raw : Json) :
    (∀ given, registry.handed codec name raw = some given →
        (registry.permissionScope name given).rank ≤ (registry.permissionScope name raw).rank) ↔
      ∀ subTools, registry.tools.lookup name = some (runPipelineTool codec policy subTools) → StepsArrive raw ∨
          ∀ given steps, registry.handed codec name raw = some given → pipelineSteps given = .ok steps →
            ∀ step ∈ steps, subTools.permissionScope step.tool step.input = .readOnly := by
  constructor
  · -- Steps that do not arrive are decided on as read-only, so they have to be.
    intro covers subTools found
    by_cases arrive : StepsArrive raw
    · exact .inl arrive
    · refine .inr fun given steps handed => ?_
      have bound := covers given handed
      simp only [registry.permissionScope_of_lookup found,
        pipelineScope_of_not_arrive codec policy subTools arrive] at bound
      have weakest := PermissionScope.rank_eq_zero.1 (Nat.le_zero.1 bound)
      exact (pipelineScope_eq_readOnly codec policy subTools given).1 weakest steps
  · intro guarded given handed
    cases found : registry.tools.lookup name with
    | none => simp [ToolRegistry.handed, found] at handed
    | some tool =>
      simp only [registry.permissionScope_of_lookup found]
      have fits := assembled name tool found
      -- Every other kind of tool has one scope for all inputs.
      cases fits with
      | leaf | capability | script => exact Nat.le_refl _
      | pipeline subTools parts =>
        rcases guarded subTools found with arrive | reads
        · -- The coerced steps are the ones the decision was made on.
          have same := pipelineSteps_coerced codec arrive
          have coerced := ToolRegistry.handed_eq_some found handed
          simp only [runPipelineTool] at coerced ⊢
          rw [coerced, same]
        · have weakest := (pipelineScope_eq_readOnly codec policy subTools given).2
            (reads given · handed)
          rw [weakest]
          exact Nat.zero_le _

def deleteFileTool : LeafTool Unit where
  name := "delete_file"
  run _ host := (.ok { content := .obj [("deleted", .bool true)] }, host)

def deletingCodec : JsonCodec where
  parse text := if text = "delete the notes" then
      some (.obj [("steps", .array [.obj [("tool", .string "delete_file")]])])
    else none
  render _ := ""

def deletingRegistry : ToolRegistry Unit :=
  ({} : ToolRegistry Unit).withTool (runPipelineTool deletingCodec allowAllPermissionPolicy
    (({} : ToolRegistry Unit).withTool deleteFileTool.tool))

theorem deletingRegistry_assembled : deletingRegistry.All (Assembled deletingCodec allowAllPermissionPolicy) :=
  .withTool .empty (.pipeline _ (ToolRegistry.All.withTool .empty (.leaf deleteFileTool)))

def deletingStep : Json := .obj [("tool", .string "delete_file")]

def deletingPipeline : Json := .obj [("steps", .array [deletingStep])]

/-- A single step object and a pipeline sent as JSON text are decided on as read-only and delete. -/
theorem repaired_steps_undercut : deletingRegistry.permissionScope "run_pipeline" deletingPipeline = .workspaceWrite ∧
    (deletingRegistry.handed deletingCodec "run_pipeline" (.obj [("steps", deletingStep)]) = some deletingPipeline ∧
      deletingRegistry.permissionScope "run_pipeline" (.obj [("steps", deletingStep)]) = .readOnly) ∧
    (deletingRegistry.handed deletingCodec "run_pipeline" (.string "delete the notes") = some deletingPipeline ∧
      deletingRegistry.permissionScope "run_pipeline" (.string "delete the notes") = .readOnly) :=
  -- Both inputs are repaired into the same array of one step.
  ⟨rfl, ⟨rfl, rfl⟩, rfl, rfl⟩

/-- A pipeline whose steps arrive as an array is decided on at its full scope. -/
theorem arriving_steps_covered :
    deletingRegistry.handed deletingCodec "run_pipeline" deletingPipeline = some deletingPipeline ∧
      (deletingRegistry.permissionScope "run_pipeline" deletingPipeline).rank ≤
        (deletingRegistry.permissionScope "run_pipeline" deletingPipeline).rank :=
  ⟨rfl, (decided_scope_covers_iff deletingRegistry_assembled "run_pipeline" deletingPipeline).2
    (fun _ _ => .inl ⟨[deletingStep], rfl⟩) deletingPipeline rfl⟩

end Codel00p
