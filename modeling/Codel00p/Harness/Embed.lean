import Codel00p.Harness.Movement
import Codel00p.Harness.Refinement

/-! An agent as a part of something larger, which decides what the agent may do. -/

namespace Codel00p

variable {ω σ : Type}

/--
An agent whose tools all do their own work.

Programs that call other tools have to be given the policy, so they are not there before it is.
-/
structure Agent (ω : Type) where
  harness : AgentHarness ω
  leaves : harness.tools.All fun tool => ∃ leaf : LeafTool ω, leaf.tool = tool

section

variable (part : σ → ω) (replace : ω → σ → σ)

def embedCall {α : Type} (operation : ω → α × ω) (whole : σ) : α × σ :=
  ((operation (part whole)).1, replace (operation (part whole)).2 whole)

def Tool.embed (tool : Tool ω) : Tool σ where
  name := tool.name
  description := tool.description
  inputSchema := tool.inputSchema
  isConcurrencySafe := tool.isConcurrencySafe
  permissionScope := tool.permissionScope
  execute input := Program.zoom (fun world => { host := part world.host, trace := world.trace })
    (fun reached world => { host := replace reached.host world.host, trace := reached.trace })
    (tool.execute input)

def LeafTool.embed (leaf : LeafTool ω) : LeafTool σ where
  name := leaf.name
  description := leaf.description
  inputSchema := leaf.inputSchema
  isConcurrencySafe := leaf.isConcurrencySafe
  scope := leaf.scope
  run input := embedCall part replace (leaf.run input)

def ToolRegistry.embed (registry : ToolRegistry ω) : ToolRegistry σ where
  tools := registry.tools.map fun (name, tool) => (name, tool.embed part replace)
  deferred := registry.deferred

def LifecycleHook.embed (hook : LifecycleHook ω) : LifecycleHook σ where
  run point context := embedCall part replace (hook.run point context)

def PostTurnStage.embed (stage : PostTurnStage ω) : PostTurnStage σ where
  extractionHook := stage.extractionHook
  submissionHook := stage.submissionHook
  extract completed whole :=
    let (submissions, reached) := embedCall part replace (stage.extract completed) whole
    (submissions.map (·.map (embedCall part replace)), reached)

/-- A harness that works on a part, with a policy of the whole. -/
def AgentHarness.embed (harness : AgentHarness ω) (policy : PermissionPolicy σ) : AgentHarness σ where
  codec := harness.codec
  tools := harness.tools.embed part replace
  permissionPolicy := policy
  infer request := embedCall part replace (harness.infer request)
  isCancelled := embedCall part replace harness.isCancelled
  emit event whole := replace (harness.emit event (part whole)) whole
  lifecycleHooks := harness.lifecycleHooks.map (·.embed part replace)
  postTurnStages := harness.postTurnStages.map (·.embed part replace)
  loadInstructions := embedCall part replace harness.loadInstructions
  retrieveMemory := harness.retrieveMemory.map fun retrieve context latest =>
    embedCall part replace (retrieve context latest)
  selectSkills := harness.selectSkills.map fun select context latest =>
    embedCall part replace (select context latest)
  describeSelf := harness.describeSelf.map fun describe state => embedCall part replace (describe state)
  gatherWorkspace := harness.gatherWorkspace.map fun gather executed =>
    embedCall part replace (gather executed)
  detectTest whole := harness.detectTest (part whole)
  truncateOutput name text := embedCall part replace (harness.truncateOutput name text)
  workspaceRoot := harness.workspaceRoot
  toolChoice := harness.toolChoice
  responseFormat := harness.responseFormat
  contextWindow := harness.contextWindow
  persona := harness.persona
  curatedMemory := harness.curatedMemory
  basePrompt := harness.basePrompt
  planning := harness.planning
  maxIterations := harness.maxIterations
  verify := harness.verify
  selfCorrect := harness.selfCorrect

theorem LeafTool.embed_tool (leaf : LeafTool ω) : leaf.tool.embed part replace = (leaf.embed part replace).tool := by
  have same : ∀ input, (leaf.tool.embed part replace).execute input = (leaf.embed part replace).tool.execute input := by
    intro input
    funext world
    show Program.exec ((leaf.tool.embed part replace).execute input) world =
      Program.exec ((leaf.embed part replace).tool.execute input) world
    simp only [Tool.embed, LeafTool.tool, Program.exec_zoom, Program.exec_bind, Program.exec_within,
      Program.exec_ofExcept]
    rfl
  exact congrArg (fun execute => { leaf.tool.embed part replace with execute }) (funext same)

section

variable (agent : Agent ω)

include agent

theorem Agent.embed_leaves : (agent.harness.tools.embed part replace).All fun tool =>
      ∃ leaf : LeafTool ω, (leaf.embed part replace).tool = tool := by
  intro name tool found
  rw [ToolRegistry.embed, Assoc.lookup_map_snd] at found
  obtain ⟨own, looked, rfl⟩ := Option.map_eq_some_iff.1 found
  obtain ⟨leaf, rfl⟩ := agent.leaves name own looked
  exact ⟨leaf, (leaf.embed_tool part replace).symm⟩

section

variable (policy : PermissionPolicy σ)

include policy

theorem Agent.embed_assembled :
    (agent.harness.embed part replace policy).tools.All (Assembled agent.harness.codec policy) := by
  intro name tool found
  obtain ⟨leaf, rfl⟩ := agent.embed_leaves part replace name tool found
  exact .leaf _

/--
An agent in a whole moves by changes of its part, by what the policy does, and by the starts of its tools.
-/
theorem Agent.embed_collaborates
    {relation : World σ → World σ → Prop} [Std.Refl relation] [IsTrans (World σ) relation]
    (own : ∀ world host, relation world { world with host := replace host world.host })
    (ask : ∀ caller request world, relation world (policy.ask caller request world).2)
    (started : ∀ world caller tool raw handed,
      relation world { world with trace := world.trace ++ [.started caller tool raw handed] }) :
    (agent.harness.embed part replace policy).Collaborates relation := by
  have calls : ∀ {α : Type} (operation : ω → α × ω), Calls relation (embedCall part replace operation) :=
    fun operation world => own world _
  refine { ask, emit := fun _ world => own world _, execute := ?_, consult := ?_ }
  · intro caller name input world
    rcases ToolRegistry.execute_cases (agent.harness.tools.embed part replace) agent.harness.codec caller name
      input world with ⟨_, same⟩ | ⟨tool, given, found, _, ran⟩
    · refine (congrArg (relation world) same).mpr (Std.Refl.refl world)
    · -- The body is the one of a plain tool, which changes the part and nothing else.
      obtain ⟨leaf, rfl⟩ := agent.embed_leaves part replace name tool found
      refine (congrArg (fun run => relation world run.2) ran).mpr ?_
      simp only [LeafTool.tool, Program.exec_bind, Program.exec_within, Program.exec_ofExcept]
      exact IsTrans.trans _ _ _ (started world caller name input given) (own _ _)
  · intro α operation consults
    cases consults with
    | infer | isCancelled | loadInstructions | truncateOutput => exact calls _
    | hook member | extract member =>
      obtain ⟨inner, _, rfl⟩ := List.mem_map.1 member
      exact fun world => own world _
    | @submit stage member completed host submissions _ found submitted =>
      obtain ⟨inner, _, rfl⟩ := List.mem_map.1 member
      -- What is submitted is what the extractor of the part has to submit, on the whole.
      change (inner.extract completed (part host)).1.map (·.map (embedCall part replace)) = .ok submissions at found
      cases extracted : (inner.extract completed (part host)).1 with
      | error error =>
        rw [extracted] at found
        exact nomatch found
      | ok inside =>
        rw [extracted] at found
        obtain rfl := Except.ok.inj found
        obtain ⟨operation, _, rfl⟩ := List.mem_map.1 submitted
        exact calls _
    | retrieveMemory present | selectSkills present | describeSelf present | gatherWorkspace present =>
      obtain ⟨inner, _, rfl⟩ := Option.map_eq_some_iff.1 present
      exact calls _

theorem Agent.embed_invariant (holds : World σ → Prop)
    (own : ∀ world host, holds world → holds { world with host := replace host world.host })
    (ask : ∀ caller request world, holds world → holds (policy.ask caller request world).2)
    (started : ∀ world caller tool raw handed, holds world →
      holds { world with trace := world.trace ++ [.started caller tool raw handed] })
    {turnId userMessage : String} {session : SessionState} {whole : σ} {ended : Except TurnStop TurnOutcome}
    {reached : TurnState σ}
    (ran : (agent.harness.embed part replace policy).runTurnWithState turnId session userMessage whole =
      (ended, reached))
    (start : holds { host := whole }) :
    holds reached.world ∧ ∀ outcome, ended = .ok outcome → outcome.session.sessionId = session.sessionId := by
  have calls : (agent.harness.embed part replace policy).Collaborates (Keeps holds) :=
    agent.embed_collaborates part replace policy own ask started
  have moved := AgentHarness.runTurn_moves turnId calls userMessage { world := { host := whole }, session }
  have last : (Program.exec ((agent.harness.embed part replace policy).runTurn turnId userMessage)
      { world := { host := whole }, session }).2 = reached := congrArg Prod.snd ran
  rw [last] at moved
  refine ⟨moved.world start, fun outcome returned => ?_⟩
  -- A turn that returns hands back the session it has reached.
  have handed := (AgentHarness.runTurnWithState_invariant _ turnId (agent.embed_assembled part replace policy)
    ran (fun _ _ => True) trivial fun _ _ _ _ => trivial).2 outcome returned
  rw [handed.1]
  exact moved.sessionId

end

end

end

end Codel00p
