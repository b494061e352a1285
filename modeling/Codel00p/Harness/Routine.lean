import Codel00p.Harness.Turn

/-! What the operations of a turn do to its state, as far as a relation between states has to allow it. -/

namespace Codel00p

open Program (exec Moves Triple Returns)

variable {ω : Type}

/-- Whether an event only reports on the way: it is no verdict on the work and no use of a budget. -/
def EventKind.isRoutine : EventKind → Bool
  | .verificationCompleted .. | .failureBudgetExceeded .. | .turnCompleted .. => false
  | _ => true

/-- What a harness asks of its host. -/
inductive AgentHarness.Consults (harness : AgentHarness ω) : {α : Type} → (ω → α × ω) → Prop
  | infer (request : HarnessInferenceRequest) : Consults harness (harness.infer request)
  | isCancelled : Consults harness harness.isCancelled
  | hook {hook : LifecycleHook ω} (member : hook ∈ harness.lifecycleHooks) (point : HookPoint)
      (context : TurnLifecycleContext) : Consults harness (hook.run point context)
  | extract {stage : PostTurnStage ω} (member : stage ∈ harness.postTurnStages) (completed : CompletedTurn) :
      Consults harness (stage.extract completed)
  | submit {stage : PostTurnStage ω} (member : stage ∈ harness.postTurnStages) {completed : CompletedTurn} {host : ω}
      {submissions : List (ω → Except HarnessError Unit × ω)} {submission : ω → Except HarnessError Unit × ω}
      (found : (stage.extract completed host).1 = .ok submissions) (submitted : submission ∈ submissions) :
      Consults harness submission
  | loadInstructions : Consults harness harness.loadInstructions
  | retrieveMemory {retrieve : TurnLifecycleContext → String → ω → Except HarnessError PromptSource × ω}
      (present : harness.retrieveMemory = some retrieve) (context : TurnLifecycleContext) (latest : String) :
      Consults harness (retrieve context latest)
  | selectSkills {select : TurnLifecycleContext → String → ω → Except HarnessError PromptSource × ω}
      (present : harness.selectSkills = some select) (context : TurnLifecycleContext) (latest : String) :
      Consults harness (select context latest)
  | describeSelf {describe : AgentSelfState → ω → Option String × ω} (present : harness.describeSelf = some describe)
      (state : AgentSelfState) : Consults harness (describe state)
  | gatherWorkspace {gather : List ExecutedToolCall → ω → Option String × ω}
      (present : harness.gatherWorkspace = some gather) (executed : List ExecutedToolCall) :
      Consults harness (gather executed)
  | truncateOutput (name text : String) : Consults harness (harness.truncateOutput name text)

structure Routine (harness : AgentHarness ω) (relation : TurnState ω → TurnState ω → Prop) : Prop where
  host : ∀ {α : Type} {operation : ω → α × ω}, harness.Consults operation →
    ∀ state, relation state (state.withHost (operation state.world.host).2)
  event : ∀ state event, event.kind.isRoutine = true → relation state
    { state.withHost (harness.emit event state.world.host) with events := state.events ++ [event] }

/-- Asking for permission and running a tool are among the steps of a relation. -/
structure Acting (harness : AgentHarness ω) (relation : TurnState ω → TurnState ω → Prop) : Prop where
  asked : ∀ state caller request,
    relation state { state with world := (harness.permissionPolicy.ask caller request state.world).2 }
  ran : ∀ state caller name input,
    relation state { state with world := (exec (harness.tools.execute harness.codec caller name input) state.world).2 }

namespace Routine

variable {harness : AgentHarness ω} {relation : TurnState ω → TurnState ω → Prop} (routine : Routine harness relation)
  (turnId : String)

include routine

theorem withHost {α : Type} {operation : ω → α × ω} (consults : harness.Consults operation) :
    Returns relation (AgentHarness.withHost operation : TurnM ω α) :=
  .within (routine.host consults)

theorem recordEvent {kind : EventKind} (plain : kind.isRoutine = true) :
    Returns relation (harness.recordEvent turnId kind) :=
  .change fun state => routine.event state _ plain

variable [Std.Refl relation]

omit routine in
theorem orFail {α : Type} (outcome : Except HarnessError α) :
    Moves relation (AgentHarness.orFail outcome : TurnM ω α) := by
  cases outcome with
  | ok value => exact .pure value
  | error error => exact .throw _

variable [IsTrans (TurnState ω) relation]

theorem runLifecycleHook (point : HookPoint) : Returns relation (harness.runLifecycleHook turnId point) := by
  refine .bind (.reads _) fun context => .forM fun hook member => ?_
  refine .bind (routine.withHost (.hook member point context)) fun outcome => ?_
  cases outcome with
  | ok done => exact .pure _
  | error error => exact routine.recordEvent turnId rfl

theorem runPostTurnStage (completed : CompletedTurn) {stage : PostTurnStage ω}
    (member : stage ∈ harness.postTurnStages) :
    Returns relation (harness.runPostTurnStage turnId completed stage) := by
  -- What is submitted depends on the host, so the extraction is followed from each state.
  refine .within_bind (routine.host (.extract member completed)) fun state => ?_
  cases found : (stage.extract completed state.world.host).1 with
  | error error => exact routine.recordEvent turnId rfl
  | ok submissions =>
    refine .forM fun submission submitted => .bind (routine.withHost (.submit member found submitted)) fun outcome => ?_
    cases outcome with
    | ok done => exact .pure _
    | error error => exact routine.recordEvent turnId rfl

theorem selfBlock (iteration : Nat) : Returns relation (harness.selfBlock iteration) := by
  unfold AgentHarness.selfBlock
  split
  · exact .pure _
  · next present => exact .bind (.reads _) fun usage => routine.withHost (.describeSelf present _)

theorem workspaceBlock : Returns relation harness.workspaceBlock := by
  unfold AgentHarness.workspaceBlock
  split
  · exact .pure _
  · next present => exact .bind (.reads _) fun executed => routine.withHost (.gatherWorkspace present _)

theorem consult {provider : Option (TurnLifecycleContext → String → ω → Except HarnessError PromptSource × ω)}
    (consults : ∀ {consulted}, provider = some consulted →
      ∀ context latest, harness.Consults (consulted context latest)) :
    Moves relation (AgentHarness.consult turnId provider) := by
  unfold AgentHarness.consult
  split
  · exact .pure _
  · refine .bind (.reads _) fun context => .bind (.reads _) fun latest => ?_
    refine .bind (routine.withHost (consults rfl context latest)).moves fun outcome => ?_
    exact .bind (orFail outcome) fun source => .pure _

theorem askModel (request : HarnessInferenceRequest) (asked : ∀ state, relation state (state.note (.asked request)))
    (replied : ∀ state reply salvaged, relation state (state.note (.replied reply salvaged)))
    (accounted : ∀ reply, Moves relation (AgentHarness.accountUsage reply : TurnM ω Unit)) :
    Moves relation (harness.askModel turnId request) := by
  refine .bind (routine.recordEvent turnId rfl).moves fun _ => .bind (.change asked) fun _ => ?_
  refine .bind (routine.withHost (.infer request)).moves fun outcome => .bind (orFail outcome) fun reply => ?_
  refine .bind (.change fun state => replied state reply _) fun _ => ?_
  refine .bind (routine.recordEvent turnId rfl).moves fun _ => .bind (accounted reply) fun _ => ?_
  exact .bind (routine.recordEvent turnId rfl).moves fun _ => .pure _

theorem noteCritique (heeded : ∀ state, relation state
      { state with verify := { state.verify with critiquePending := false } }) (producedToolCalls : Bool) :
    Returns relation (harness.noteCritique turnId producedToolCalls) := by
  refine .bind (.reads _) fun pending => ?_
  cases pending with
  | true => exact .bind (.change heeded) fun _ => routine.recordEvent turnId rfl
  | false => exact .pure _

omit routine [IsTrans (TurnState ω) relation] in
theorem sayReply (said : ∀ state content, relation state (state.push (.assistant content)))
    (reply : HarnessInferenceResponse) : Moves relation (AgentHarness.sayReply reply : TurnM ω Unit) := by
  unfold AgentHarness.sayReply
  split
  · exact .change fun state => said state _
  · exact .pure _

theorem reportAnswer (call : ModelToolCall) (answer : ToolAnswer) :
    Returns relation (harness.reportAnswer turnId call answer) := by
  cases answer with
  | ok result =>
    exact .bind (.forM fun _ _ => routine.recordEvent turnId rfl)
      fun _ => routine.recordEvent turnId rfl
  | error error => exact routine.recordEvent turnId rfl

theorem judge (decided : List (ModelToolCall × Except HarnessError PermissionDecision)) (offset : Nat) :
    Moves relation (harness.judge turnId decided offset) := by
  induction decided generalizing offset with
  | nil => exact .pure _
  | cons first rest ih =>
    obtain ⟨call, outcome⟩ := first
    refine .bind (orFail outcome) fun decision => .ite ?_ ?_
    · exact .bind (ih _) fun _ => .pure _
    · -- A denial is reported before the rest is sorted.
      refine .bind (routine.recordEvent turnId rfl).moves fun _ => ?_
      exact .bind (ih _) fun _ => .pure _

section

variable (acting : Acting harness relation)

include acting

theorem decideBatch (batch : List ModelToolCall) : Moves relation (harness.decideBatch turnId batch) := by
  have reports : ∀ kind : ModelToolCall → EventKind, (∀ call, (kind call).isRoutine = true) →
      Moves relation (batch.forM fun call => harness.recordEvent turnId (kind call)) :=
    fun kind plain => .forM fun call _ => (routine.recordEvent turnId (plain call)).moves
  refine .bind (reports _ fun _ => rfl) fun _ => .bind (.reads _) fun sessionId => ?_
  refine .bind (reports _ fun _ => rfl) fun _ => ?_
  exact .mapM fun call _ => .perform fun state => acting.asked state _ _

theorem executeBatch (returned : ∀ state call answer, relation state (state.note (.returned call answer)))
    (calls : List ModelToolCall) : Moves relation (harness.executeBatch turnId calls) := by
  refine .bind (.forM fun call _ => (routine.recordEvent turnId rfl).moves) fun _ => ?_
  refine .mapM fun call _ => .perform fun state => ?_
  -- The call changes the world, and then its answer is noted.
  exact IsTrans.trans _ _ _ (acting.ran state _ _ _) (returned _ call _)

section

variable (verified : ∀ state check command success exitCode attempt event,
    event.kind = .verificationCompleted check command success exitCode attempt → relation state
      { state.withHost (harness.emit event state.world.host) with events := state.events ++ [event] })
  (settles : ∀ state verdict, relation state { state with verify := { state.verify with lastVerified := verdict } })
  (feedback : ∀ state attempt command exitCode content,
    relation state (state.push (.user (harness.verificationFeedback attempt command exitCode content))))

include verified settles feedback

theorem runChecks (attempt : Nat) (checks : List String) : Moves relation (harness.runChecks turnId attempt checks) := by
  induction checks with
  | nil => exact .bind (.change fun state => settles state _) fun _ => .pure _
  | cons check rest ih =>
    refine .bind (.perform fun state => acting.ran state _ _ _) fun answer => ?_
    cases answer with
    | error error => exact .bind (routine.recordEvent turnId rfl).moves fun _ => ih
    | ok result =>
      refine .bind (.change fun state => verified state _ _ _ _ _ _ rfl) fun _ => .ite ih ?_
      refine .bind (.change fun state => settles state _) fun _ => ?_
      exact .bind (.change fun state => feedback state _ _ _ _) fun _ => .pure _

theorem verifyBeforeDone
    (noted : ∀ state, relation state (state.note (.donePoint state.verify state.executed state.world.host)))
    (counted : ∀ state attempts, relation state { state with verify := { state.verify with attempts } })
    (critique : Moves relation (AgentHarness.injectCritique : TurnM ω Unit)) :
    Moves relation (harness.verifyBeforeDone turnId) := by
  have completes : Moves relation harness.critiqueOrComplete :=
    .bind (.reads _) fun due => .ite (.bind critique fun _ => .pure _) (.bind (.reads _) fun _ => .pure _)
  refine .bind (.change noted) fun _ => .bind (.reads _) fun enters => .ite (.bind ?_ fun outcome => ?_) completes
  · refine .bind (.reads _) fun checks => .ite (.pure _) (.bind (.change fun state => counted state _) fun _ => ?_)
    exact .bind (.reads _) fun attempt => routine.runChecks turnId acting verified settles feedback attempt checks
  · cases outcome with
    | failed => exact .pure _
    | passed | skipped => exact completes

end

end

end Routine

structure Working (harness : AgentHarness ω) (relation : TurnState ω → TurnState ω → Prop) : Prop
    extends Routine harness relation, Acting harness relation where
  returned : ∀ state call answer, relation state (state.note (.returned call answer))
  batch : ∀ state note, relation state (state.note (.batch note))
  failures : ∀ state failures, relation state { state with failures }
  exceeded : ∀ state operation attempts errorKind event,
    event.kind = .failureBudgetExceeded operation attempts errorKind → relation state
      { state.withHost (harness.emit event state.world.host) with events := state.events ++ [event] }
  recorded : ∀ state callId name content, relation state
    ((state.push (.toolResult callId name content)).note (.recorded callId content))
  executed : ∀ state call, relation state { state with executed := state.executed ++ [call] }
  nudge : ∀ state operation attempts lastError replan text,
    replanNudge operation attempts lastError replan = some text → relation state (state.push (.user text))

namespace Working

def IsNudge (text : String) : Prop :=
  ∃ operation attempts lastError replan, replanNudge operation attempts lastError replan = some text

variable {harness : AgentHarness ω} {relation : TurnState ω → TurnState ω → Prop} [Std.Refl relation]
  [IsTrans (TurnState ω) relation] (working : Working harness relation) (turnId : String)

omit [Std.Refl relation] in
theorem follow {α : Type} {program : TurnM ω α} (moves : Moves relation program) (base : TurnState ω) :
    Triple (relation base) program (fun _ => relation base) (fun _ => relation base) :=
  .of_moves moves fun _ _ moved reached => IsTrans.trans _ _ _ reached moved

include working

omit [Std.Refl relation] in
theorem accountFailure (call : ModelToolCall) (content : Json) (base : TurnState ω) :
    Triple (relation base) (harness.accountFailure turnId call content)
      (fun nudge state => relation base state ∧ ∀ text ∈ nudge.toList, IsNudge text) (fun _ => relation base) := by
  refine .reads_bind fun tracker => .change_bind (relation base) ?_ ?_
  · exact fun state moved => IsTrans.trans _ _ _ moved.1 (working.failures state _)
  refine .ite (fun _ => ?_) fun _ => .pure _ fun state moved => ⟨moved, nofun⟩
  have reports : ∀ operation attempts errorKind, Moves relation
      (harness.recordEvent turnId (.failureBudgetExceeded operation attempts errorKind)) :=
    fun _ _ _ => .change fun state => working.exceeded state _ _ _ _ rfl
  refine .bind (follow (reports _ _ _) base) fun _ => ?_
  -- The text of the nudge is cut at a byte, which panics inside a character.
  split
  · exact .throw _ fun _ moved => moved
  · next nudge earned =>
    refine .pure _ fun state moved => ⟨moved, fun text member => ?_⟩
    cases List.mem_singleton.1 member
    exact ⟨_, _, _, _, earned⟩

theorem settleCall (call : ModelToolCall) (answer : ToolAnswer) (base : TurnState ω) :
    Triple (relation base) (harness.settleCall turnId call answer)
      (fun nudge state => relation base state ∧ ∀ text ∈ nudge.toList, IsNudge text) (fun _ => relation base) := by
  refine .bind (follow (working.reportAnswer turnId call answer).moves base) fun _ => ?_
  refine .bind (working.accountFailure turnId call _ base) fun nudge => ?_
  refine .knowing (fun _ holds => holds.2) fun earned => ?_
  refine .bind ((follow (working.withHost (.truncateOutput _ _)).moves base).starting (fun _ holds => holds.1)) fun recorded => ?_
  refine .change_bind (relation base) ?_ ?_
  · exact fun state moved => IsTrans.trans _ _ _ moved (working.recorded state _ _ _)
  refine .bind (follow (working.runLifecycleHook turnId _).moves base) fun _ => ?_
  refine .change_bind (relation base) ?_ (.pure _ fun _ moved => ⟨moved, earned⟩)
  exact fun state moved => IsTrans.trans _ _ _ moved (working.executed state _)

theorem settleAll (answers : List (ModelToolCall × ToolAnswer)) (base : TurnState ω) :
    Triple (relation base) (harness.settleAll turnId answers)
      (fun nudges state => relation base state ∧ ∀ text ∈ nudges, IsNudge text) (fun _ => relation base) := by
  induction answers with
  | nil => exact .pure _ fun _ moved => ⟨moved, nofun⟩
  | cons first rest ih =>
    obtain ⟨call, answer⟩ := first
    refine .bind (working.settleCall turnId call answer base) fun nudge => ?_
    refine .knowing (fun _ holds => holds.2) fun earned => ?_
    refine .bind (ih.starting (fun _ holds => holds.1))
      fun nudges => .pure _ fun _ holds => ⟨holds.1, fun text member => ?_⟩
    rcases List.mem_append.1 member with own | later
    · exact earned text own
    · exact holds.2 text later

theorem recordBatch (batch : List ModelToolCall) (last : Bool) (slots : List (Option ToolAnswer)) :
    Moves relation (harness.recordBatch turnId batch last slots) := by
  refine Triple.moves fun base => ?_
  refine .change_bind (relation base) (fun state moved => IsTrans.trans _ _ _ moved (working.batch state _)) ?_
  refine .bind (working.settleAll turnId _ base) fun nudges => ?_
  refine .knowing (fun _ holds => holds.2) fun earned => ?_
  have nudging : Moves relation
      (nudges.forM fun nudge => (Program.change (·.push (.user nudge)) : TurnM ω Unit)) := by
    refine .forM fun nudge member => .change fun state => ?_
    obtain ⟨operation, attempts, lastError, replan, said⟩ := earned nudge member
    exact working.nudge state operation attempts lastError replan nudge said
  exact (follow nudging base).starting (fun _ holds => holds.1)

theorem runToolCalls (calls : List ModelToolCall) : Moves relation (harness.runToolCalls turnId calls) := by
  have runs : ∀ batch last, Moves relation (harness.runBatch turnId batch last) := fun batch last =>
    .bind (working.decideBatch turnId working.toActing batch) fun outcomes =>
      .bind (working.judge turnId _ _) fun _ =>
        .bind (working.executeBatch turnId working.toActing working.returned _) fun _ =>
          working.recordBatch turnId _ _ _
  unfold AgentHarness.runToolCalls
  induction batches harness.isSafe calls.length calls with
  | nil => exact .pure _
  | cons batch rest ih => exact .bind (runs batch rest.isEmpty) fun _ => ih

end Working

end Codel00p
