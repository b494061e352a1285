import Codel00p.Harness.Assembly

/-! No tool body is started by a program without a decision that allows it. -/

namespace Codel00p

open Program (exec Moves exec_bind exec_ofExcept exec_attempt exec_perform)

variable {ω : Type}

theorem split_snoc {α : Type} {entries before after : List α} {new entry : α}
    (split : entries ++ [new] = before ++ entry :: after) :
    (before = entries ∧ entry = new) ∨ ∃ earlier, entries = before ++ entry :: earlier := by
  rcases List.eq_nil_or_concat after with rfl | ⟨earlier, last, rfl⟩
  · obtain ⟨same, own⟩ := List.append_inj' split rfl
    exact .inl ⟨same.symm, (List.cons.inj own).1.symm⟩
  · have shape : entries ++ [new] = (before ++ entry :: earlier) ++ [last] := by simpa using split
    exact .inr ⟨earlier, (List.append_inj' shape rfl).1⟩

def Action.caller : Action → Caller
  | .decided caller _ _ => caller
  | .started caller _ _ _ => caller

def Sanctioned (trace : List Action) (tool : String) (raw : Json) : Prop :=
  ∃ caller request decision, .decided caller request (.ok decision) ∈ trace ∧
    request.toolName = tool ∧ request.input = raw ∧ decision.allowsExecution = true

/--
Every tool body was started after a decision that allows the tool on the input of its call,
but for the callers that are exempt.
-/
def Mediated (exempt : Caller → Prop) (trace : List Action) : Prop :=
  ∀ before caller tool raw handed after,
    trace = before ++ .started caller tool raw handed :: after → exempt caller ∨ Sanctioned before tool raw

theorem Sanctioned.append {trace : List Action} {tool : String} {raw : Json}
    (sanctioned : Sanctioned trace tool raw) (more : List Action) : Sanctioned (trace ++ more) tool raw := by
  obtain ⟨caller, request, decision, member, facts⟩ := sanctioned
  exact ⟨caller, request, decision, List.mem_append_left more member, facts⟩

theorem Mediated.nil {exempt : Caller → Prop} : Mediated exempt [] := by
  intro before caller tool raw handed after split
  simp at split

theorem Mediated.snoc {exempt : Caller → Prop} {trace : List Action} (mediated : Mediated exempt trace)
    {action : Action} (fine : ∀ caller tool raw handed, action = .started caller tool raw handed →
      exempt caller ∨ Sanctioned trace tool raw) : Mediated exempt (trace ++ [action]) := by
  intro before caller tool raw handed after split
  -- The start in question is the new action or one of the old ones.
  rcases split_snoc split with ⟨rfl, own⟩ | ⟨earlier, old⟩
  · exact fine caller tool raw handed own.symm
  · exact mediated before caller tool raw handed earlier old

/--
What a tool body may do to the trace: add actions of programs it runs,
and keep every start mediated.
-/
def Governed (world reached : World ω) : Prop :=
  (∃ actions, reached.trace = world.trace ++ actions ∧
    ∀ action ∈ actions, ∃ requestId, action.caller = .program requestId) ∧
  ∀ exempt, Mediated exempt world.trace → Mediated exempt reached.trace

instance : Std.Refl (Governed (ω := ω)) where
  refl _ := ⟨⟨[], by simp, by simp⟩, fun _ start => start⟩

instance : IsTrans (World ω) Governed where
  trans := by
    rintro world between reached ⟨⟨first, led, own⟩, kept⟩ ⟨⟨second, goes, others⟩, keeps⟩
    refine ⟨⟨first ++ second, by rw [goes, led, List.append_assoc], ?_⟩,
      fun exempt start => keeps exempt (kept exempt start)⟩
    intro action member
    rcases List.mem_append.1 member with early | late
    · exact own action early
    · exact others action late

theorem governed_of_trace_eq {world reached : World ω} (same : reached.trace = world.trace) :
    Governed world reached :=
  ⟨⟨[], by simp [same], by simp⟩, fun _ start => same ▸ start⟩

theorem ToolRegistry.execute_cases (registry : ToolRegistry ω) (codec : JsonCodec) (caller : Caller)
    (name : String) (input : Json) (world : World ω) : (registry.handed codec name input = none ∧
      (exec (registry.execute codec caller name input) world).2 = world) ∨
    ∃ tool given, registry.tools.lookup name = some tool ∧ registry.handed codec name input = some given ∧
      exec (registry.execute codec caller name input) world = exec (tool.execute given)
          { world with trace := world.trace ++ [.started caller name input given] } := by
  unfold ToolRegistry.execute ToolRegistry.handed
  cases found : registry.tools.lookup name with
  | none =>
    -- Without a tool the call is answered from the catalog or refused.
    refine .inl ⟨rfl, ?_⟩
    dsimp only
    split <;> [split; skip] <;> simp
  | some tool =>
    have registered : registry.isMetaTool name = false := by simp [isMetaTool, found]
    simp only [registered, Bool.false_eq_true, if_false]
    cases checked : validateToolInput name tool.inputSchema
        (coerceToolInput codec tool.inputSchema input) with
    | error error => exact .inl ⟨rfl, rfl⟩
    | ok passed => exact .inr ⟨tool, _, rfl, rfl, rfl⟩

/--
What an execution leaves on the trace: nothing if it gets to no tool's body,
or else the start of the body and what the body has programs do.
-/
def Ran (handed : Option Json) (caller : Caller) (tool : String) (raw : Json)
    (trace reached : List Action) : Prop :=
  match handed with
  | none => reached = trace
  | some given =>
    ∃ actions, reached = trace ++ .started caller tool raw given :: actions ∧
      (∀ action ∈ actions, ∃ requestId, action.caller = .program requestId) ∧
      ∀ exempt, Mediated exempt (trace ++ [.started caller tool raw given]) → Mediated exempt reached

section

variable (codec : JsonCodec) (policy : PermissionPolicy ω) {subTools : ToolRegistry ω}

abbrev GovernedTools (registry : ToolRegistry ω) : Prop :=
  registry.All fun tool => ∀ input, Moves Governed (tool.execute input)

theorem execute_ran (parts : GovernedTools subTools) (caller : Caller) (name : String) (input : Json)
    (world : World ω) : Ran (subTools.handed codec name input) caller name input world.trace
      (exec (subTools.execute codec caller name input) world).2.trace := by
  rcases subTools.execute_cases codec caller name input world with
    ⟨refused, unchanged⟩ | ⟨tool, given, found, handed, goes⟩
  · rw [refused, unchanged]
    exact rfl
  · rw [handed, goes]
    obtain ⟨⟨actions, appended, programs⟩, kept⟩ := parts name tool found given
      ⟨world.host, world.trace ++ [.started caller name input given]⟩
    exact ⟨actions, by simpa using appended, programs, kept⟩

theorem execute_governed (parts : GovernedTools subTools) (world : World ω) {tool : String}
    {input : Json} (sanctioned : Sanctioned world.trace tool input) (requestId : String) :
    Governed world (exec (subTools.execute codec (.program requestId) tool input) world).2 := by
  have ran := execute_ran codec parts (.program requestId) tool input world
  generalize exec (subTools.execute codec (.program requestId) tool input) world = done at ran ⊢
  cases handed : subTools.handed codec tool input with
  | none =>
    rw [handed] at ran
    exact governed_of_trace_eq ran
  | some given =>
    rw [handed] at ran
    obtain ⟨actions, appended, programs, kept⟩ := ran
    refine ⟨⟨_, appended, ?_⟩, fun exempt start => kept exempt (start.snoc ?_)⟩
    · intro action member
      rcases List.mem_cons.1 member with rfl | later
      · exact ⟨requestId, rfl⟩
      · exact programs action later
    · -- The start itself is sanctioned.
      rintro caller name raw other same
      cases same
      exact .inr sanctioned

theorem ask_governed (requestId : String) (request : PermissionRequest) :
    ∀ world, Governed world (policy.ask (.program requestId) request world).2 := by
  intro world
  refine ⟨⟨_, rfl, ?_⟩, fun _ start => start.snoc nofun⟩
  intro action member
  cases List.mem_singleton.1 member
  exact ⟨requestId, rfl⟩

def DispatchOutcome.ofAnswer : Except HarnessError ToolResult → DispatchOutcome
  | .ok result => { ok := true, value := result.content }
  | .error error => { ok := false, value := .obj [("error", .string error.message)] }

theorem exec_dispatchTool (subTools : ToolRegistry ω) (tool : String) (input : Json) (requestId : String) (world : World ω) :
    exec (dispatchTool codec policy subTools tool input requestId) world =
      match policy.ask (.program requestId) (programRequest subTools tool input requestId) world with
      | (.error error, asked) => (.error error, asked)
      | (.ok decision, asked) =>
        if decision.allowsExecution then
          let ran := exec (subTools.execute codec (.program requestId) tool input) asked
          (.ok (.ofAnswer ran.1), ran.2)
        else (.ok { ok := false, value := decision.denial }, asked) := by
  unfold dispatchTool
  rw [exec_bind, exec_perform]
  generalize policy.ask (.program requestId) _ world = answer
  obtain ⟨outcome, asked⟩ := answer
  cases outcome with
  | error error => rfl
  | ok decision =>
    by_cases allowed : decision.allowsExecution = true
    · simp only [exec_bind, exec_ofExcept, allowed, Bool.not_true, Bool.false_eq_true,
        if_false, if_true, exec_attempt]
      generalize exec (subTools.execute codec (.program requestId) tool input) asked = ran
      rcases ran with ⟨_ | _, _⟩ <;> rfl
    · simp [exec_bind, allowed]

theorem dispatchTool_governed (parts : GovernedTools subTools) (tool : String) (input : Json) (requestId : String) :
    Moves Governed (dispatchTool codec policy subTools tool input requestId) := by
  intro world
  have asked := ask_governed policy requestId (programRequest subTools tool input requestId) world
  rw [exec_dispatchTool]
  unfold PermissionPolicy.ask at asked ⊢
  generalize policy.decide _ world.host = answer at asked ⊢
  -- From here on the decision is on the trace.
  obtain ⟨_ | decision, host⟩ := answer
  · exact asked
  · dsimp only
    split
    · next allowed =>
      have sanctioned : Sanctioned (world.trace ++ [.decided (.program requestId)
          (programRequest subTools tool input requestId) (.ok decision)]) tool input :=
        ⟨_, _, decision, List.mem_append_right _ (List.mem_singleton.2 rfl), rfl, rfl, allowed⟩
      exact IsTrans.trans _ _ _ asked (execute_governed codec parts ⟨host, _⟩ sanctioned requestId)
    · exact asked

theorem runSteps_governed (parts : GovernedTools subTools) (stopOnError : Bool) (idLabel : String)
    (steps : List PipelineStep) (index : Nat) (context : List (String × Json)) (run : PipelineRun) : Moves Governed
      (runSteps codec policy subTools stopOnError idLabel steps index context run) := by
  induction steps generalizing index context run with
  | nil => exact .pure run
  | cons step steps ih =>
    refine .bind (dispatchTool_governed codec policy parts _ _ _) fun outcome => ?_
    exact .ite (ih _ _ _) (.ite (.pure _) (ih _ _ _))

section

variable (engine : CodeExecutionEngine ω)

include engine

theorem audit_governed (kind : EventKind) : Moves Governed (engine.audit kind) :=
  .change fun _ => governed_of_trace_eq rfl

theorem bridgeCall_governed (parts : GovernedTools engine.subTools)
    (seq : Nat) (tool : String) (input : Json) : Moves Governed (engine.bridgeCall seq tool input) := by
  refine .bind (audit_governed engine _) fun _ => .bind (audit_governed engine _) fun _ => ?_
  refine .bind (.attempt (dispatchTool_governed _ _ parts _ _ _)) fun dispatched => ?_
  cases dispatched with
  | error error => exact .bind (audit_governed engine _) fun _ => .pure _
  | ok outcome =>
    refine .ite (.bind (audit_governed engine _) fun _ => .pure _) ?_
    exact .ite (.bind (audit_governed engine _) fun _ => .pure _) (.bind (audit_governed engine _) fun _ => .pure _)

theorem runScript_governed (parts : GovernedTools engine.subTools)
    (script : Script ω) (reports : List CallReport) : Moves Governed (engine.runScript script reports) := by
  -- The tree of the script is finite, and each call in it is governed.
  induction script generalizing reports with
  | finish answer => exact .pure _
  | observe next ih => exact .bind (.reads _) fun host => ih host reports
  | call tool input next ih =>
    exact .bind (bridgeCall_governed engine parts _ _ _) fun answered => ih answered.1 _

end

theorem Assembled.governed {tool : Tool ω} (assembled : Assembled codec policy tool) (input : Json) :
    Moves Governed (tool.execute input) := by
  induction assembled generalizing input with
  | leaf leaf =>
    exact .bind (.within fun _ => governed_of_trace_eq rfl) fun answer => .ofExcept answer
  | pipeline subTools parts ih =>
    refine .bind (.ofExcept _) fun steps => .bind ?_ fun run => .pure _
    exact runSteps_governed codec policy ih _ _ _ _ _ _
  | capability subTools parts capability steps ih =>
    exact .bind (runSteps_governed codec policy ih _ _ _ _ _ _) fun run => .pure _
  | script subTools parts emit interpret ih =>
    refine .bind (.ofExcept _) fun code => .ite (.bind (.throw _) fun _ => ?_) ?_
    all_goals
      refine .bind (runScript_governed ⟨codec, policy, subTools, emit, interpret⟩ ih _ _) fun ended => ?_
      rcases ended with ⟨_ | value, reports⟩
      · exact .throw _
      · exact .pure _

variable {codec policy} in
theorem ToolRegistry.All.governed {registry : ToolRegistry ω}
    (assembled : registry.All (Assembled codec policy)) : GovernedTools registry :=
  fun name tool found input => (assembled name tool found).governed codec policy input

end

end Codel00p
