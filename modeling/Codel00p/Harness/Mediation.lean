import Codel00p.Harness.Refinement

/-! Tool bodies are started only where the policy allows it, but for the checks of the harness itself. -/

namespace Codel00p

variable {ω : Type}

theorem Mediated.ran {exempt : Caller → Prop} {handed : Option Json} {caller : Caller} {tool : String}
    {raw : Json} {trace reached : List Action} (mediated : Mediated exempt trace)
    (ran : Ran handed caller tool raw trace reached)
    (fine : exempt caller ∨ Sanctioned trace tool raw) : Mediated exempt reached := by
  cases handed with
  | none => exact (show reached = trace from ran) ▸ mediated
  | some given =>
    obtain ⟨actions, _, _, kept⟩ := ran
    refine kept exempt (mediated.snoc ?_)
    -- The start itself is the only one that is not the body's own.
    rintro _ _ _ _ ⟨⟩
    exact fine

namespace AgentHarness

variable (harness : AgentHarness ω)

def NoChecksDue (log : List (TurnNote ω)) : Prop :=
  ∀ verify executed host, .donePoint verify executed host ∈ log → harness.verificationDue verify executed host = false

end AgentHarness

theorem TurnStep.keeps_mediated {harness : AgentHarness ω} {exempt : Caller → Prop}
    {before after : Phase × TurnView ω} (steps : TurnStep harness before after)
    (checks : exempt .verification ∨ harness.NoChecksDue before.2.log)
    (mediated : Mediated exempt before.2.trace) : Mediated exempt after.2.trace := by
  cases steps with
  | decide view pending callId request outcome =>
    exact mediated.snoc nofun
  | execute view pending call answer reached sanctioned ran => exact mediated.ran ran (.inr sanctioned)
  | check view verify executed host input reached noted due ran =>
    refine mediated.ran ran (.inl ?_)
    -- A check that runs was due at a done-point that is on the log.
    rcases checks with exempted | never
    · exact exempted
    · rw [never verify executed host noted] at due
      exact nomatch due
  | user | compact | ask | hear | pass | say | call | batch | record | nudge | finish | donePoint =>
    exact mediated

/--
Every tool body that a turn starts for a model call, a pipeline step, a script, or a capability
was allowed by an earlier decision on that tool and that input.

The checks the harness runs on its own ask nobody, so all bodies are covered
if there was no done-point at which a check was due.
-/
theorem turn_mediated (harness : AgentHarness ω)
    (assembled : harness.tools.All (Assembled harness.codec harness.permissionPolicy))
    (turnId userMessage : String) (session : SessionState) (host : ω)
    (outcome : Except TurnStop TurnOutcome) (reached : TurnState ω)
    (ran : harness.runTurnWithState turnId session userMessage host = (outcome, reached)) :
    Mediated (· = .verification) reached.world.trace ∧
      (harness.NoChecksDue reached.log → Mediated (fun _ => False) reached.world.trace) := by
  have exempted := harness.runTurnWithState_invariant turnId assembled ran
    (fun _ view => Mediated (· = .verification) view.trace) .nil
    fun _ _ steps mediated => steps.keeps_mediated (.inl rfl) mediated
  have covered := harness.runTurnWithState_invariant turnId assembled ran
    (fun _ view => harness.NoChecksDue view.log → Mediated (fun _ => False) view.trace)
    (fun _ => .nil) fun before _ steps mediated never => by
      -- What was never due in the end was never due before.
      have earlier : harness.NoChecksDue before.2.log := fun verify executed host noted =>
        never verify executed host (steps.mem_log noted)
      exact steps.keeps_mediated (.inr earlier) (mediated earlier)
  obtain ⟨⟨_, exempted⟩, _⟩ := exempted
  obtain ⟨⟨_, covered⟩, _⟩ := covered
  exact ⟨exempted, covered⟩

/-- A harness that may create files but not run checks, and verifies its work if it is told to. -/
def eagerHarness (selfVerify : Bool) : AgentHarness Bool where
  codec := { parse _ := none, render _ := "" }
  tools := (({} : ToolRegistry Bool).withTool
      (LeafTool.tool { name := "create_file", run := fun _ host => (.ok { content := .null }, host) })).withTool
    (LeafTool.tool { name := "run_checks", scope := .shell,
                     run := fun _ host => (.ok { content := .obj [("success", .bool true)] }, host) })
  permissionPolicy :=
    { decide request host :=
        (.ok (if request.toolName = "create_file" then .allow request.requestId .allow
          else .deny request.requestId .deny "not allowed"), host) }
  infer _ asked :=
    (.ok { provider := "", model := "", assistantMessage := if asked then some "done" else none,
           toolCalls := if asked then [] else [{ id := "a", name := "create_file", input := .obj [] }] },
      true)
  maxIterations := 2
  verify := { selfVerify, autoTest := true, verifyIterations := 1, testCommand := some "make test" }

def eagerTurn (selfVerify : Bool) : Except TurnStop TurnOutcome × TurnState Bool :=
  (eagerHarness selfVerify).runTurnWithState "turn" { sessionId := "session" } "go" false

def Action.about : Action → String × Bool
  | .decided _ request _ => (request.toolName, false)
  | .started _ tool _ _ => (tool, true)

theorem not_mediated_of_about {trace : List Action} {before : List (String × Bool)} {tool : String}
    {after : List (String × Bool)} (about : trace.map Action.about = before ++ (tool, true) :: after)
    (undecided : (tool, false) ∉ before) : ¬Mediated (fun _ => False) trace := by
  intro mediated
  obtain ⟨first, rest, rfl, firstAbout, restAbout⟩ := List.map_eq_append_iff.1 about
  obtain ⟨start, rest, rfl, startAbout, _⟩ := List.map_eq_cons_iff.1 restAbout
  cases start with
  | decided => exact absurd startAbout (by simp [Action.about])
  | started caller name raw handed =>
    have own : name = tool := by simpa [Action.about] using startAbout
    subst own
    rcases mediated first caller name raw handed rest rfl with wrong | sanctioned
    · exact wrong
    · obtain ⟨asker, request, decision, member, same, _⟩ := sanctioned
      refine undecided ?_
      rw [← firstAbout, ← same]
      exact List.mem_map_of_mem member

/-- The checks of a verified turn run although the policy would not allow them. -/
theorem checks_unmediated : ¬Mediated (fun _ => False) (eagerTurn true).2.world.trace := by
  have about : (eagerTurn true).2.world.trace.map Action.about =
      [("create_file", false), ("create_file", true)] ++ ("run_checks", true) :: [] := by
    decide +kernel
  exact not_mediated_of_about about (by decide)

/-- Without verification the same turn is mediated, and it does create its file. -/
theorem unverified_turn_mediated :
    (eagerTurn false).2.world.trace.map Action.about = [("create_file", false), ("create_file", true)] ∧
      Mediated (fun _ => False) (eagerTurn false).2.world.trace := by
  refine ⟨by decide +kernel, ?_⟩
  refine (turn_mediated (eagerHarness false) ?_ "turn" "go" _ false (eagerTurn false).1
    (eagerTurn false).2 Prod.mk.eta.symm).2 ?_
  · exact .withTool (.withTool .empty (.leaf _)) (.leaf _)
  · intro verify executed host _
    rfl

end Codel00p
