import Codel00p.Harness.Governance

/-! The steps of a pipeline as they are dispatched: what is decided, what runs, and what is counted. -/

namespace Codel00p

variable {ω : Type}

structure Dispatch (ω : Type) where
  step : PipelineStep
  /-- The input of the step with its references resolved. -/
  resolved : Json
  requestId : String
  before : World ω
  answer : Except HarnessError PermissionDecision
  /-- The world once the policy has answered. -/
  asked : World ω
  result : Except HarnessError DispatchOutcome
  after : World ω

namespace Dispatch

variable (dispatch : Dispatch ω)

/-- Whether the policy allows the tool of the step on its resolved input. -/
def allowed : Bool :=
  match dispatch.answer with
  | .ok decision => decision.allowsExecution
  | .error _ => false

/-- Whether the step is reported as successful. -/
def succeeded : Bool :=
  match dispatch.result with
  | .ok outcome => outcome.ok
  | .error _ => false

/-- What later steps see of the step: its output, or null for a failure. -/
def output : Json :=
  match dispatch.result with
  | .ok outcome => if outcome.ok then outcome.value else .null
  | .error _ => .null

def BodyRan : Prop :=
  ∃ given actions, dispatch.after.trace = dispatch.asked.trace ++
    .started (.program dispatch.requestId) dispatch.step.tool dispatch.resolved given :: actions

end Dispatch

section

variable (codec : JsonCodec) (policy : PermissionPolicy ω) (subTools : ToolRegistry ω)

/--
A dispatch that keeps to the rules: the policy is asked about the tool and the resolved input, the body
runs just when it is allowed to and the registry has arguments for it, and a denial has no effect.
-/
structure Dispatch.Fair (dispatch : Dispatch ω) : Prop where
  decided : policy.ask (.program dispatch.requestId)
    (programRequest subTools dispatch.step.tool dispatch.resolved dispatch.requestId) dispatch.before =
      (dispatch.answer, dispatch.asked)
  body : dispatch.BodyRan ↔
    dispatch.allowed = true ∧ (subTools.handed codec dispatch.step.tool dispatch.resolved).isSome = true
  denied : dispatch.allowed = false → dispatch.after = dispatch.asked ∧ dispatch.succeeded = false

theorem not_bodyRan_of_after_eq {dispatch : Dispatch ω} (same : dispatch.after = dispatch.asked) :
    ¬dispatch.BodyRan := by
  rintro ⟨given, actions, grown⟩
  rw [same] at grown
  have lengths := congrArg List.length grown
  simp at lengths

variable {codec policy subTools} in
/-- A dispatch over governed tools keeps to the rules. -/
theorem Dispatch.fair (parts : GovernedTools subTools) {dispatch : Dispatch ω}
    (decided : policy.ask (.program dispatch.requestId)
      (programRequest subTools dispatch.step.tool dispatch.resolved dispatch.requestId) dispatch.before =
        (dispatch.answer, dispatch.asked))
    (ended : Program.exec (dispatchTool codec policy subTools dispatch.step.tool dispatch.resolved
      dispatch.requestId) dispatch.before = (dispatch.result, dispatch.after)) :
    dispatch.Fair codec policy subTools := by
  obtain ⟨step, resolved, requestId, before, answer, asked, result, after⟩ := dispatch
  dsimp only at decided ended
  rw [exec_dispatchTool, decided] at ended
  cases answer with
  | error error =>
    -- A policy that fails has decided nothing, so nothing runs.
    obtain ⟨rfl, rfl⟩ := Prod.mk.inj ended
    exact ⟨decided, iff_of_false (not_bodyRan_of_after_eq rfl) (fun wrong => nomatch wrong.1), fun _ => ⟨rfl, rfl⟩⟩
  | ok decision =>
    dsimp only at ended
    by_cases allows : decision.allowsExecution = true
    · rw [if_pos allows] at ended
      obtain ⟨rfl, rfl⟩ := Prod.mk.inj ended
      refine ⟨decided, ?_, fun denied => absurd (allows.symm.trans denied) (by decide)⟩
      have ran := execute_ran codec parts (.program requestId) step.tool resolved asked
      cases handed : subTools.handed codec step.tool resolved with
      | none =>
        rw [handed] at ran
        refine iff_of_false ?_ (by simp)
        rintro ⟨given, actions, grown⟩
        have lengths := congrArg List.length (ran.symm.trans grown)
        simp at lengths
      | some given =>
        rw [handed] at ran
        obtain ⟨actions, grown, _⟩ := ran
        exact iff_of_true ⟨given, actions, grown⟩ ⟨allows, rfl⟩
    · rw [if_neg allows] at ended
      obtain ⟨rfl, rfl⟩ := Prod.mk.inj ended
      exact ⟨decided, iff_of_false (not_bodyRan_of_after_eq rfl) (fun holds => allows holds.1), fun _ => ⟨rfl, rfl⟩⟩

inductive Dispatched (idLabel : String) :
    Nat → List (String × Json) → World ω → List (Dispatch ω) → World ω → Prop where
  | done (index : Nat) (context : List (String × Json)) (world : World ω) :
    Dispatched idLabel index context world [] world
  | next {index : Nat} {context : List (String × Json)} {dispatch : Dispatch ω}
      {later : List (Dispatch ω)} {reached : World ω}
      (numbered : dispatch.requestId = idLabel ++ "-step-" ++ toString index)
      (resolves : dispatch.resolved = resolveReferences codec context dispatch.step.input)
      (fair : dispatch.Fair codec policy subTools)
      (goesOn : Dispatched idLabel (index + 1) (recordOutput context dispatch.step.id dispatch.output)
        dispatch.after later reached) :
    Dispatched idLabel index context dispatch.before (dispatch :: later) reached

/--
What a run of steps amounts to: which of them were dispatched, where it stopped,
and what it counted on top of what was counted before.
-/
structure StepsRan (stopOnError : Bool) (idLabel : String) (steps : List PipelineStep) (index : Nat)
    (context : List (String × Json)) (run : PipelineRun) (world : World ω)
    (dispatches : List (Dispatch ω)) (outcome : Except HarnessError PipelineRun) (reached : World ω) :
    Prop where
  dispatched : Dispatched codec policy subTools idLabel index context world dispatches reached
  inOrder : dispatches.map (·.step) <+: steps
  stops : stopOnError = true → ∀ dispatch ∈ dispatches.dropLast, dispatch.succeeded = true
  counted : ∀ done, outcome = .ok done →
    done.completed = run.completed + dispatches.countP (·.succeeded) ∧ done.total = run.total
  whole : ∀ done, outcome = .ok done →
    (stopOnError = true → ∀ dispatch ∈ dispatches, dispatch.succeeded = true) → dispatches.map (·.step) = steps
  failed : ∀ error, outcome = .error error → ∃ dispatch ∈ dispatches.getLast?, dispatch.answer = .error error

namespace StepsRan

variable {codec policy subTools} {stopOnError : Bool} {idLabel : String} {steps : List PipelineStep}
  {index : Nat} {context : List (String × Json)} {run next : PipelineRun} {first : Dispatch ω}
  {dispatches : List (Dispatch ω)} {outcome : Except HarnessError PipelineRun} {reached : World ω}

/-- One step in front of a run that goes on after it. -/
theorem cons (later : StepsRan codec policy subTools stopOnError idLabel steps (index + 1)
      (recordOutput context first.step.id first.output) next first.after dispatches outcome reached)
    (numbered : first.requestId = idLabel ++ "-step-" ++ toString index)
    (resolves : first.resolved = resolveReferences codec context first.step.input)
    (fair : first.Fair codec policy subTools) (goes : stopOnError = true → first.succeeded = true)
    (counts : next.completed = run.completed + first.succeeded.toNat) (total : next.total = run.total) :
    StepsRan codec policy subTools stopOnError idLabel (first.step :: steps) index context run first.before
      (first :: dispatches) outcome reached where
  dispatched := .next numbered resolves fair later.dispatched
  inOrder := by simpa using later.inOrder
  stops := by
    intro stop dispatch member
    cases dispatches with
    | nil => exact nomatch member
    | cons second rest =>
      rcases List.mem_cons.1 member with rfl | after
      · exact goes stop
      · exact later.stops stop dispatch after
  counted := by
    intro done returned
    obtain ⟨completed, all⟩ := later.counted done returned
    refine ⟨?_, all.trans total⟩
    rw [completed, counts, List.countP_cons]
    cases first.succeeded with
    | true => simp only [Bool.toNat_true, if_true]; omega
    | false => simp
  whole := by
    intro done returned successful
    rw [List.map_cons, later.whole done returned fun stop dispatch member =>
      successful stop dispatch (List.mem_cons_of_mem _ member)]
  failed := by
    intro error stopped
    obtain ⟨dispatch, last, answer⟩ := later.failed error stopped
    refine ⟨dispatch, ?_, answer⟩
    cases dispatches with
    | nil => exact nomatch last
    | cons second rest => exact last

theorem last (numbered : first.requestId = idLabel ++ "-step-" ++ toString index)
    (resolves : first.resolved = resolveReferences codec context first.step.input)
    (fair : first.Fair codec policy subTools)
    (ends : (∃ error, outcome = .error error ∧ first.answer = .error error) ∨
      (stopOnError = true ∧ first.succeeded = false ∧
        ∃ done, outcome = .ok done ∧ done.completed = run.completed ∧ done.total = run.total)) :
    StepsRan codec policy subTools stopOnError idLabel (first.step :: steps) index context run first.before
      [first] outcome first.after where
  dispatched := .next numbered resolves fair (.done ..)
  inOrder := by simp
  stops := fun _ _ wrong => nomatch wrong
  counted := by
    intro done returned
    rcases ends with ⟨error, wrong, _⟩ | ⟨_, unsuccessful, other, same, completed, total⟩
    · exact nomatch returned.symm.trans wrong
    · cases returned.symm.trans same
      exact ⟨by simp [completed, unsuccessful], total⟩
  whole := by
    intro done returned successful
    rcases ends with ⟨error, wrong, _⟩ | ⟨stop, unsuccessful, _⟩
    · exact nomatch returned.symm.trans wrong
    · have claimed := successful stop first List.mem_cons_self
      exact absurd (unsuccessful.symm.trans claimed) (by decide)
  failed := by
    intro error stopped
    rcases ends with ⟨other, same, answer⟩ | ⟨_, _, done, wrong, _⟩
    · cases stopped.symm.trans same
      exact ⟨first, rfl, answer⟩
    · exact nomatch stopped.symm.trans wrong

end StepsRan

def dispatchOf (step : PipelineStep) (resolved : Json) (requestId : String) (world : World ω) :
    Dispatch ω :=
  let asking := policy.ask (.program requestId) (programRequest subTools step.tool resolved requestId) world
  let ended := Program.exec (dispatchTool codec policy subTools step.tool resolved requestId) world
  { step, resolved, requestId, before := world, answer := asking.1, asked := asking.2,
    result := ended.1, after := ended.2 }

theorem dispatchOf_error {step : PipelineStep} {resolved : Json} {requestId : String} {world : World ω}
    {error : HarnessError}
    (stopped : (dispatchOf codec policy subTools step resolved requestId world).result = .error error) :
    (dispatchOf codec policy subTools step resolved requestId world).answer = .error error := by
  simp only [dispatchOf, exec_dispatchTool] at stopped ⊢
  generalize policy.ask (.program requestId) _ world = asking at stopped ⊢
  obtain ⟨_ | decision, asked⟩ := asking
  · cases stopped
    rfl
  · dsimp only at stopped
    split at stopped <;> exact nomatch stopped

variable {codec policy subTools} in
/-- Running steps dispatches them one after the other, up to where it stops. -/
theorem runSteps_ran (parts : GovernedTools subTools) (stopOnError : Bool) (idLabel : String)
    (steps : List PipelineStep) (index : Nat) (context : List (String × Json)) (run : PipelineRun)
    {world reached : World ω} {outcome : Except HarnessError PipelineRun}
    (ran : Program.exec (runSteps codec policy subTools stopOnError idLabel steps index context run) world =
      (outcome, reached)) :
    ∃ dispatches, StepsRan codec policy subTools stopOnError idLabel steps index context run world
      dispatches outcome reached := by
  induction steps generalizing index context run world with
  | nil =>
    obtain ⟨rfl, rfl⟩ := Prod.mk.inj ran
    refine ⟨[], .done .., List.prefix_rfl, fun _ _ wrong => (nomatch wrong), ?_, fun _ _ _ => rfl,
      fun _ wrong => (nomatch wrong)⟩
    intro done same
    cases same
    exact ⟨rfl, rfl⟩
  | cons step steps ih =>
    let first := dispatchOf codec policy subTools step (resolveReferences codec context step.input)
      (idLabel ++ "-step-" ++ toString index) world
    have fair : first.Fair codec policy subTools := Dispatch.fair parts rfl rfl
    rw [runSteps, Program.exec_bind, show Program.exec (dispatchTool codec policy subTools step.tool
      (resolveReferences codec context step.input) (idLabel ++ "-step-" ++ toString index)) world =
        (first.result, first.after) from rfl] at ran
    cases ended : first.result with
    | error error =>
      rw [ended] at ran
      obtain ⟨rfl, rfl⟩ := Prod.mk.inj ran
      exact ⟨[first], .last rfl rfl fair (.inl ⟨error, rfl, dispatchOf_error codec policy subTools ended⟩)⟩
    | ok done =>
      rw [ended] at ran
      dsimp only at ran
      have reported : first.succeeded = done.ok := by rw [Dispatch.succeeded, ended]
      have shown : first.output = if done.ok then done.value else .null := by rw [Dispatch.output, ended]
      rw [← shown] at ran
      by_cases ok : done.ok = true
      · rw [if_pos ok] at ran
        obtain ⟨dispatches, later⟩ := ih _ _ _ ran
        refine ⟨first :: dispatches, later.cons rfl rfl fair (fun _ => reported.trans ok) ?_ ?_⟩
        · rw [reported, ok]
          rfl
        · rfl
      · rw [if_neg ok] at ran
        have unsuccessful : first.succeeded = false := reported.trans (Bool.eq_false_iff.2 ok)
        by_cases stop : stopOnError = true
        · rw [if_pos stop] at ran
          obtain ⟨rfl, rfl⟩ := Prod.mk.inj ran
          exact ⟨[first], .last rfl rfl fair (.inr ⟨stop, unsuccessful, _, rfl, rfl, rfl⟩)⟩
        · rw [if_neg stop] at ran
          obtain ⟨dispatches, later⟩ := ih _ _ _ ran
          refine ⟨first :: dispatches, later.cons rfl rfl fair (fun stops => absurd stops stop) ?_ ?_⟩
          · rw [unsuccessful]
            rfl
          · rfl

end

theorem Dispatched.fair {codec : JsonCodec} {policy : PermissionPolicy ω} {subTools : ToolRegistry ω}
    {idLabel : String} {index : Nat} {context : List (String × Json)} {world reached : World ω}
    {dispatches : List (Dispatch ω)}
    (dispatched : Dispatched codec policy subTools idLabel index context world dispatches reached) :
    ∀ dispatch ∈ dispatches, dispatch.Fair codec policy subTools := by
  induction dispatched with
  | done => exact fun _ wrong => nomatch wrong
  | next numbered resolves fair goesOn ih =>
    intro dispatch member
    rcases List.mem_cons.1 member with rfl | later
    · exact fair
    · exact ih dispatch later

def listingTools : ToolRegistry Unit :=
  ({} : ToolRegistry Unit).withTool
    (LeafTool.tool { name := "list_files", run := fun _ host => (.ok { content := .null }, host) })

def listingRun (tools : List String) : Except HarnessError PipelineRun × World Unit :=
  Program.exec (runPipeline { parse _ := none, render _ := "" } allowAllPermissionPolicy listingTools
    (tools.map fun tool => { id := none, tool, input := .obj [] }) true "pipeline" []) { host := () }

end Codel00p
