import Codel00p.Harness.Agent

/-! Verification and self-critique before a turn is done. -/

namespace Codel00p

/-- Tools whose success means the workspace changed. -/
def mutatingTools : List String := ["create_file", "update_file", "delete_file", "apply_patch", "run_command"]

def turnMutated (executed : List ExecutedToolCall) : Bool :=
  executed.any fun call => call.name ∈ mutatingTools && (call.result.content.get "error").isNone

/-- Whether there is work since the self-critique, or there was none yet. -/
def reflectionAddedWork (verify : VerifyState) (executed : List ExecutedToolCall) : Bool :=
  !verify.critiqueInjected || decide (verify.executedAtCritique < executed.length)

/-- The single reflection instruction injected for the self-critique step. -/
def selfCritiquePrompt : String :=
  "Before finishing, review your own work: what did you actually change, and what did you actually "
    ++ "verify? If anything is unverified, risky, or you over-claimed that something works, address it "
    ++ "now (make the fix and/or run the relevant checks). If everything is genuinely done and "
    ++ "verified, briefly confirm what you verified. Do not claim success you have not checked."

/-- A compact failure excerpt of a check's result. -/
def captureFailures (content : Json) : String :=
  let summary := match content.get "summary" with
    | none | some .null => []
    | some summary =>
      let count := fun key => toString (((summary.get key).bind Json.asU64).getD 0)
      ["summary: " ++ count "passed" ++ " passed, " ++ count "failed" ++ " failed"]
  let stderr := (content.getStr "stderr").getD ""
  let stdout := (content.getStr "stdout").getD ""
  let body := if isBlank stderr then stdout else stderr
  match summary ++ (if isBlank body then [] else [trim body]) with
  | [] => "(no captured output)"
  | parts => "\n".intercalate parts

/-- What the done-point does next. -/
inductive DonePhase where
  | complete (verified : Option Bool)
  | continue
  deriving DecidableEq, Repr

/-- Result of running the configured checks once. -/
inductive VerificationOutcome where
  | passed
  | failed
  | skipped
  deriving DecidableEq, Repr

namespace AgentHarness

variable {ω : Type} (harness : AgentHarness ω) (turnId : String)

/-- Whether the verification phase is entered at a done-point. -/
def entersVerification (verify : VerifyState) (executed : List ExecutedToolCall) : Bool :=
  harness.verify.selfVerify && reflectionAddedWork verify executed && turnMutated executed
    && decide (verify.attempts < harness.verify.verifyIterations)

def dueChecks (host : ω) : List String :=
  if "run_checks" ∉ harness.tools.names then []
  else if (harness.detectTest host).isNone && harness.verify.testCommand.isNone then []
  else (if harness.verify.autoTest then ["test"] else [])
    ++ (if harness.verify.lintAndFix then ["lint"] else [])

def checkInput (check : String) : Json :=
  .obj (("check", .string check) ::
    if check = "test" then
      (harness.verify.testCommand.map fun command => ("command", Json.string command)).toList
    else [])

def executeCheck (check : String) : TurnM ω ToolAnswer :=
  Program.perform fun state =>
    let (answer, world) := Program.exec (harness.tools.execute harness.codec .verification
      "run_checks" (harness.checkInput check)) state.world
    (answer, { state with world })

/-- What the model is told of a failed check. -/
def verificationFeedback (attempt : Nat) (command : String) (exitCode : Option Int) (content : Json) :
    String :=
  "Automated verification failed (`" ++ command ++ "` exited "
    ++ (exitCode.map toString).getD "non-zero" ++ "):\n" ++ captureFailures content
    ++ "\n\nFix the issue and continue; do not finish until it passes."
    ++ if harness.verify.verifyIterations ≤ attempt then
      "\n\nThis was the final automated verification attempt; if it still fails the turn will end "
        ++ "with verification UNRESOLVED."
    else ""

/-- Run the checks in order up to the first failing one. -/
def runChecks (attempt : Nat) : List String → TurnM ω VerificationOutcome
  | [] => do
    Program.change fun state => { state with verify := { state.verify with lastVerified := some true } }
    return .passed
  | check :: rest => do
    match ← harness.executeCheck check with
    | .error error =>
      -- A check that could not even run is skipped.
      harness.recordEvent turnId (.toolCallFailed "run_checks" error.message)
      runChecks attempt rest
    | .ok result =>
      let content := result.content
      let success := ((content.get "success").bind Json.asBool).getD false
      let command := (content.getStr "command").getD check
      let exitCode := (content.get "exit_code").bind Json.asI64
      harness.recordEvent turnId (.verificationCompleted check command success exitCode attempt)
      if success then runChecks attempt rest
      else
        Program.change fun state =>
          { state with verify := { state.verify with lastVerified := some false } }
        Program.change (·.push (.user (harness.verificationFeedback attempt command exitCode content)))
        return .failed

def runVerification : TurnM ω VerificationOutcome := do
  let checks ← Program.reads fun state => harness.dueChecks state.world.host
  if checks.isEmpty then return .skipped
  else
    Program.change fun state =>
      { state with verify := { state.verify with attempts := state.verify.attempts + 1 } }
    let attempt ← Program.reads (·.verify.attempts)
    harness.runChecks turnId attempt checks

/-- Ask the model once to review its own work. -/
def injectCritique : TurnM ω Unit :=
  Program.change fun state =>
    { state.push (.user selfCritiquePrompt) with
      verify := { state.verify with
        critiqueInjected := true,
        critiquePending := true,
        executedAtCritique := state.executed.length } }

def critiqueOrComplete : TurnM ω DonePhase := do
  let due ← Program.reads fun state => harness.verify.selfCritique
    && !state.verify.critiqueInjected && turnMutated state.executed
  if due then
    injectCritique
    return .continue
  else
    let verified ← Program.reads (·.verify.lastVerified)
    return .complete verified

def verifyBeforeDone : TurnM ω DonePhase := do
  Program.change fun state => state.note (.donePoint state.verify state.executed state.world.host)
  let enters ← Program.reads fun state => harness.entersVerification state.verify state.executed
  if enters then
    match ← harness.runVerification turnId with
    | .failed => return .continue
    | .passed | .skipped => harness.critiqueOrComplete
  else harness.critiqueOrComplete

end AgentHarness

end Codel00p
